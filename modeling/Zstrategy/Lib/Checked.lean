/-
Computations in `Except String` that check as they go: each check has a
text, and the first one that fails is the result. The lemmas turn "the
computation succeeded" into the conditions that were checked.

There is a lemma for each shape a check takes: a computation that is passed
on, a condition with its text, and a check of every member of a list. Those
about single checks are equivalences, so they also say when a computation
does succeed.
-/
namespace Zstrategy.Lib

variable {α β : Type}

/-- Go on only if `p` holds. -/
def expect (p : Prop) [Decidable p] (reason : String) : Except String Unit :=
  if p then .ok () else .error reason

theorem bind_eq_ok {e : Except String α} {f : α → Except String β} {b : β} :
    e >>= f = .ok b ↔ ∃ a, e = .ok a ∧ f a = .ok b := by
  cases e with
  | ok a => exact ⟨fun h => ⟨a, rfl, h⟩, fun ⟨_, ha, h⟩ => by cases ha; exact h⟩
  | error e => exact ⟨nofun, fun ⟨_, ha, _⟩ => nomatch ha⟩

/-- A computation that fails fails in its first part or in its second. -/
theorem bind_eq_error {e : Except String α} {f : α → Except String β} {m : String} :
    e >>= f = .error m ↔ e = .error m ∨ ∃ a, e = .ok a ∧ f a = .error m := by
  cases e with
  | ok a =>
      refine ⟨fun h => .inr ⟨a, rfl, h⟩, ?_⟩
      rintro (h | ⟨_, ha, h⟩)
      · nomatch h
      · cases ha
        exact h
  | error e =>
      constructor
      · intro h
        cases h
        exact .inl rfl
      · rintro (h | ⟨_, ha, -⟩)
        · cases h
          rfl
        · nomatch ha

theorem expect_eq_ok {p : Prop} [Decidable p] {reason : String} {x : Unit} :
    expect p reason = .ok x ↔ p := by
  unfold expect
  by_cases hp : p <;> simp [hp]

theorem expect_eq_error {p : Prop} [Decidable p] {reason m : String} :
    expect p reason = .error m ↔ ¬p ∧ reason = m := by
  unfold expect
  by_cases hp : p <;> simp [hp]

/-- A check, and what comes after it. -/
theorem expect_bind_eq_ok {p : Prop} [Decidable p] {reason : String}
    {f : Unit → Except String β} {b : β} :
    expect p reason >>= f = .ok b ↔ p ∧ f () = .ok b := by
  rw [bind_eq_ok]
  exact ⟨fun ⟨_, hp, h⟩ => ⟨expect_eq_ok.1 hp, h⟩, fun ⟨hp, h⟩ => ⟨(), expect_eq_ok.2 hp, h⟩⟩

theorem expect_bind_eq_error {p : Prop} [Decidable p] {reason m : String}
    {f : Unit → Except String β} :
    expect p reason >>= f = .error m ↔ (¬p ∧ reason = m) ∨ (p ∧ f () = .error m) := by
  rw [bind_eq_error, expect_eq_error]
  exact or_congr_right
    ⟨fun ⟨_, hp, h⟩ => ⟨expect_eq_ok.1 hp, h⟩, fun ⟨hp, h⟩ => ⟨(), expect_eq_ok.2 hp, h⟩⟩

/-- A loop that succeeded has succeeded at each entry. -/
theorem get_of_mapM {f : α → Except String β} {xs : List α} {ys : List β}
    (h : xs.mapM f = .ok ys) {i : Nat} {x : α} (hx : xs[i]? = some x) :
    ∃ y, ys[i]? = some y ∧ f x = .ok y := by
  induction xs generalizing ys i with
  | nil => cases hx
  | cons a xs ih =>
      rw [List.mapM_cons] at h
      obtain ⟨b, hb, h⟩ := bind_eq_ok.1 h
      obtain ⟨bs, hbs, h⟩ := bind_eq_ok.1 h
      cases h
      cases i with
      | zero =>
          cases hx
          exact ⟨b, rfl, hb⟩
      | succ i => exact ih hbs hx

theorem length_of_mapM {f : α → Except String β} {xs : List α} {ys : List β}
    (h : xs.mapM f = .ok ys) : ys.length = xs.length := by
  induction xs generalizing ys with
  | nil =>
      cases h
      rfl
  | cons a xs ih =>
      rw [List.mapM_cons] at h
      obtain ⟨b, -, h⟩ := bind_eq_ok.1 h
      obtain ⟨bs, hbs, h⟩ := bind_eq_ok.1 h
      cases h
      exact congrArg (· + 1) (ih hbs)

theorem exists_mapM {f : α → Except String β} {xs : List α} (h : ∀ x ∈ xs, ∃ y, f x = .ok y) :
    ∃ ys, xs.mapM f = .ok ys := by
  induction xs with
  | nil => exact ⟨[], rfl⟩
  | cons a xs ih =>
      obtain ⟨b, hb⟩ := h a List.mem_cons_self
      obtain ⟨bs, hbs⟩ := ih fun x hx => h x (List.mem_cons_of_mem a hx)
      refine ⟨b :: bs, ?_⟩
      rw [List.mapM_cons, hb, hbs]
      rfl

end Zstrategy.Lib
