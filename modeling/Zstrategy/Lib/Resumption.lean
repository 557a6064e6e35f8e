/-
Programs that hand control to code they know nothing about. An `Outcome`
is what a program makes of one start state: it reverts, it returns, or it
stops at a call to the outside and keeps the rest of itself as a function
of the state it will find when (and if) control comes back.

Nothing here says what the outside may do in between; that is the
machine's business (Lib/Reentrancy.lean). What this file fixes is how a
program is reasoned about one call at a time: `Sat` reads an outcome
against a `Rely`, where the invariant must hold whenever control leaves
and may be assumed, together with the interference relation, whenever it
returns.

# Reading a text

The simp lemmas `wp_…` are one for each way of writing a program, so a
weakest precondition is worked out along the text. A check owes the rely its
message where it fails, a request owes it the invariant, and nothing is owed
for what the outside does, which the rely bounds instead. A rely that
refuses a message (`Rely.avoids`) turns a proof into one that the check
behind the message cannot fail.
-/
namespace Zstrategy.Lib

variable {σ q ρ α β : Type}

-- ================================================================ outcomes

/-- The result of running a program from one state. -/
inductive Outcome (σ q ρ α : Type) where
  /-- The program undoes itself and reports why. -/
  | revert (reason : String)
  /-- The program returns. -/
  | done (a : α) (s : σ)
  /-- Control leaves in state `s`; the rest runs from whatever state and
  reply come back. -/
  | call (s : σ) (req : q) (resume : σ → ρ → Outcome σ q ρ α)

namespace Outcome

/-- Run `f` on what the outcome returns, under every pending call. -/
def bind : Outcome σ q ρ α → (α → σ → Outcome σ q ρ β) → Outcome σ q ρ β
  | .revert e, _ => .revert e
  | .done a s, f => f a s
  | .call s req k, f => .call s req fun s' x => (k s' x).bind f

/-- Some behaviour of the called code lets the program return. -/
def CanReturn : Outcome σ q ρ α → Prop
  | .revert _ => False
  | .done _ _ => True
  | .call _ _ k => ∃ s x, (k s x).CanReturn

/-- The outcome returns if every call is answered with `x` at once. -/
def answered (x : ρ) : Outcome σ q ρ α → Bool
  | .revert _ => false
  | .done _ _ => true
  | .call s _ k => (k s x).answered x

/-- If the run that is given one and the same reply throughout returns, some
run does. -/
theorem CanReturn.of_answered {x : ρ} {o : Outcome σ q ρ α} (h : o.answered x = true) :
    o.CanReturn := by
  induction o with
  | revert e => cases h
  | done a s => exact trivial
  | call s req k ih => exact ⟨s, x, ih s x h⟩

/-- Some behaviour of the called code makes the program revert with `e`. -/
def CanRevert (e : String) : Outcome σ q ρ α → Prop
  | .revert e' => e' = e
  | .done _ _ => False
  | .call _ _ k => ∃ s x, (k s x).CanRevert e

/-- The reason of an outcome that reverts before it calls anything. -/
def reason : Outcome σ q ρ α → Option String
  | .revert e => some e
  | _ => none

/-- A text that is computed without asking anything is one the program can
revert with. -/
theorem CanRevert.of_reason {o : Outcome σ q ρ α} {e : String} (h : o.reason = some e) :
    o.CanRevert e := by
  cases o with
  | revert e' => exact Option.some.inj h
  | done a s => cases h
  | call s req k => cases h

end Outcome

/-- A program: an outcome for every start state. -/
def Code (σ q ρ α : Type) := σ → Outcome σ q ρ α

namespace Code

instance : Monad (Code σ q ρ) where
  pure a := fun s => .done a s
  bind c f := fun s => (c s).bind fun a s' => f a s'

/-- Go on only if `p` holds. -/
def require (p : Prop) [Decidable p] (reason : String) : Code σ q ρ Unit :=
  fun s => if p then .done () s else .revert reason

/-- Read the whole state. -/
def read : Code σ q ρ σ := fun s => .done s s

/-- Rewrite the state. -/
def modify (f : σ → σ) : Code σ q ρ Unit := fun s => .done () (f s)

/-- Call out and wait for the reply. -/
def ask (req : q) : Code σ q ρ ρ := fun s => .call s req fun s' x => .done x s'

/-- A pure computation that may fail. -/
def ofExcept : Except String α → Code σ q ρ α
  | .ok a => fun s => .done a s
  | .error e => fun _ => .revert e

end Code

-- ================================================================ the rely

/-- What a program may count on when control comes back, and what it owes
when control leaves. -/
structure Rely (σ q ρ : Type) where
  /-- Owed at every call, granted at every return. -/
  inv : σ → Prop
  /-- What the outside does between a call and its return. -/
  rel : σ → σ → Prop
  /-- The replies a request can get. -/
  answers : q → ρ → Prop
  /-- The reasons the program may revert with. -/
  err : String → Prop

/-- No assumption and no obligation. -/
def Rely.any : Rely σ q ρ :=
  ⟨fun _ => True, fun _ _ => True, fun _ _ => True, fun _ => True⟩

/-- No assumption, and never a revert with `e`. -/
def Rely.avoids (e : String) : Rely σ q ρ :=
  ⟨fun _ => True, fun _ _ => True, fun _ _ => True, fun e' => e' ≠ e⟩

/-- Every request is answered with `x` at once, and nothing may revert. -/
def Rely.still (x : ρ) : Rely σ q ρ :=
  ⟨fun _ => True, fun s s' => s' = s, fun _ y => y = x, fun _ => False⟩

/-- Whatever is called replies at once and changes nothing. -/
def Rely.silent : Rely σ q ρ :=
  ⟨fun _ => True, fun s s' => s' = s, fun _ _ => True, fun _ => True⟩

/-- Nothing may be called and nothing may revert. -/
def Rely.direct : Rely σ q ρ :=
  ⟨fun _ => False, fun _ _ => True, fun _ _ => True, fun _ => False⟩

/-- Nothing may be called. -/
def Rely.quiet : Rely σ q ρ :=
  ⟨fun _ => False, fun _ _ => True, fun _ _ => True, fun _ => True⟩

/-- Every way the outcome can go keeps the rely, and every return meets
`Q`. -/
def Outcome.Sat (Γ : Rely σ q ρ) (Q : α → σ → Prop) : Outcome σ q ρ α → Prop
  | .revert e => Γ.err e
  | .done a s => Q a s
  | .call s req k =>
      Γ.inv s ∧ ∀ s' x, Γ.inv s' → Γ.rel s s' → Γ.answers req x →
        (k s' x).Sat Γ Q

/-- `Sat` of a program at a start state. -/
def Code.wp (Γ : Rely σ q ρ) (c : Code σ q ρ α) (Q : α → σ → Prop) (s : σ) :
    Prop :=
  (c s).Sat Γ Q

variable {Γ : Rely σ q ρ} {Q Q' : α → σ → Prop}

namespace Outcome

/-- A weaker postcondition holds where a stronger one does. -/
theorem Sat.mono {o : Outcome σ q ρ α} (h : o.Sat Γ Q)
    (hQ : ∀ a s, Q a s → Q' a s) : o.Sat Γ Q' := by
  induction o with
  | revert e => exact h
  | done a s => exact hQ a s h
  | call s req k ih =>
      exact ⟨h.1, fun s' x hi hr hx => ih s' x (h.2 s' x hi hr hx)⟩

/-- Less to count on in place of more. -/
theorem Sat.weaken {Γ' : Rely σ q ρ} {o : Outcome σ q ρ α} (h : o.Sat Γ Q)
    (hinv : ∀ s, Γ.inv s → Γ'.inv s)
    (hrel : ∀ s s', Γ.inv s → Γ'.inv s' → Γ'.rel s s' → Γ.inv s' ∧ Γ.rel s s')
    (hans : ∀ req x, Γ'.answers req x → Γ.answers req x)
    (herr : ∀ e, Γ.err e → Γ'.err e) : o.Sat Γ' Q := by
  induction o with
  | revert e => exact herr e h
  | done a s => exact h
  | call s req k ih =>
      refine ⟨hinv s h.1, fun s' x hi hr hx => ?_⟩
      obtain ⟨hi', hr'⟩ := hrel s s' h.1 hi hr
      exact ih s' x (h.2 s' x hi' hr' (hans req x hx))

/-- What follows has to hold from wherever the first part returns. -/
theorem sat_bind {o : Outcome σ q ρ α} {f : α → σ → Outcome σ q ρ β}
    {P : β → σ → Prop} :
    (o.bind f).Sat Γ P ↔ o.Sat Γ fun a s => (f a s).Sat Γ P := by
  induction o with
  | revert e => exact Iff.rfl
  | done a s => exact Iff.rfl
  | call s req k ih =>
      constructor
      · exact fun h => ⟨h.1, fun s' x hi hr hx => (ih s' x).1 (h.2 s' x hi hr hx)⟩
      · exact fun h => ⟨h.1, fun s' x hi hr hx => (ih s' x).2 (h.2 s' x hi hr hx)⟩

/-- A postcondition that does not read the state is settled by one
returning behaviour. -/
theorem Sat.of_canReturn {o : Outcome σ q ρ α} {P : Prop}
    (h : o.Sat Rely.any fun _ _ => P) (hret : o.CanReturn) : P := by
  induction o with
  | revert e => exact hret.elim
  | done a s => exact h
  | call s req k ih =>
      obtain ⟨s', x, hret⟩ := hret
      exact ih s' x (h.2 s' x trivial trivial trivial) hret

/-- Where it returned, it could. -/
theorem Sat.canReturn {o : Outcome σ q ρ α} (h : o.Sat Γ Q) :
    o.Sat Γ fun a s => Q a s ∧ o.CanReturn := by
  induction o with
  | revert e => exact h
  | done a s => exact ⟨h, trivial⟩
  | call s req k ih =>
      refine ⟨h.1, fun s' x hi hr hx => ?_⟩
      exact (ih s' x (h.2 s' x hi hr hx)).mono fun a t ht => ⟨ht.1, s', x, ht.2⟩

/-- Two readings at once. -/
theorem Sat.and {Γ' : Rely σ q ρ} {o : Outcome σ q ρ α} (h : o.Sat Γ Q) (h' : o.Sat Γ' Q') :
    o.Sat ⟨fun s => Γ.inv s ∧ Γ'.inv s, fun s s' => Γ.rel s s' ∧ Γ'.rel s s',
        fun req x => Γ.answers req x ∧ Γ'.answers req x, fun e => Γ.err e ∧ Γ'.err e⟩
      fun a s => Q a s ∧ Q' a s := by
  induction o with
  | revert e => exact ⟨h, h'⟩
  | done a s => exact ⟨h, h'⟩
  | call s req k ih =>
      refine ⟨⟨h.1, h'.1⟩, fun s' x hi hr hx => ?_⟩
      exact ih s' x (h.2 s' x hi.1 hr.1 hx.1) (h'.2 s' x hi.2 hr.2 hx.2)

/-- A program that has nothing left to show shows it. -/
theorem Sat.any {o : Outcome σ q ρ α} (hQ : ∀ a s, Q a s) : o.Sat Rely.any Q := by
  induction o with
  | revert e => exact trivial
  | done a s => exact hQ a s
  | call s req k ih => exact ⟨trivial, fun s' x _ _ _ => ih s' x⟩

/-- Against the rely that changes nothing and always answers `x`, no check
fails: so the run with these replies returns. -/
theorem Sat.answered {x : ρ} {o : Outcome σ q ρ α} (h : o.Sat (Rely.still x) Q) :
    o.answered x = true := by
  induction o with
  | revert e => exact h.elim
  | done a s => rfl
  | call s req k ih => exact ih s x (h.2 s x trivial rfl rfl)

/-- A program that may neither call nor revert returns. -/
theorem sat_direct {o : Outcome σ q ρ α} :
    o.Sat Rely.direct Q ↔ ∃ a s, o = .done a s ∧ Q a s := by
  cases o with
  | revert e => exact ⟨fun h => h.elim, fun ⟨_, _, h, _⟩ => nomatch h⟩
  | call s req k => exact ⟨fun h => h.1.elim, fun ⟨_, _, h, _⟩ => nomatch h⟩
  | done a s =>
      constructor
      · exact fun h => ⟨a, s, rfl, h⟩
      · intro h
        obtain ⟨_, _, hdone, hQ⟩ := h
        cases hdone
        exact hQ

/-- A program that may not call returns or reverts at once. -/
theorem sat_quiet {o : Outcome σ q ρ α} (h : o.Sat Rely.quiet Q) :
    (∃ e, o = .revert e) ∨ ∃ a s, o = .done a s ∧ Q a s := by
  cases o with
  | revert e => exact .inl ⟨e, rfl⟩
  | call s req k => exact h.1.elim
  | done a s => exact .inr ⟨a, s, rfl, h⟩

/-- A rely that does not let a message pass rules out reverting with it. -/
theorem Sat.not_canRevert {e : String} {o : Outcome σ q ρ α}
    (h : o.Sat (Rely.avoids e) Q) : ¬o.CanRevert e := by
  induction o with
  | revert e' => exact h
  | done a s => exact id
  | call s req k ih =>
      rintro ⟨s', x, hx⟩
      exact ih s' x (h.2 s' x trivial trivial trivial) hx

end Outcome

-- ============================================================ the wp rules

namespace Code

/-- A returned value is what the postcondition is about. -/
@[simp] theorem wp_pure (a : α) (s : σ) :
    (pure a : Code σ q ρ α).wp Γ Q s ↔ Q a s := Iff.rfl

/-- The first part owes what the second needs. -/
@[simp] theorem wp_bind (c : Code σ q ρ α) (f : α → Code σ q ρ β)
    (P : β → σ → Prop) (s : σ) :
    (c >>= f).wp Γ P s ↔ c.wp Γ (fun a s' => (f a).wp Γ P s') s :=
  Outcome.sat_bind

/-- A check may be relied on afterwards; where it fails, its message is
owed. -/
@[simp] theorem wp_require (p : Prop) [Decidable p] (reason : String)
    (P : Unit → σ → Prop) (s : σ) :
    (require p reason : Code σ q ρ Unit).wp Γ P s
      ↔ (p → P () s) ∧ (¬p → Γ.err reason) := by
  unfold wp require
  by_cases hp : p <;> simp [hp, Outcome.Sat]

/-- Reading gives the state itself. -/
@[simp] theorem wp_read (P : σ → σ → Prop) (s : σ) :
    (read : Code σ q ρ σ).wp Γ P s ↔ P s s := Iff.rfl

/-- A write changes the state that the postcondition is about. -/
@[simp] theorem wp_modify (f : σ → σ) (P : Unit → σ → Prop) (s : σ) :
    (modify f : Code σ q ρ Unit).wp Γ P s ↔ P () (f s) := Iff.rfl

/-- At a request the invariant is owed, and may be used when the reply
comes, together with what the rely says of the way between. -/
@[simp] theorem wp_ask (req : q) (P : ρ → σ → Prop) (s : σ) :
    (ask req : Code σ q ρ ρ).wp Γ P s
      ↔ Γ.inv s ∧ ∀ s' x, Γ.inv s' → Γ.rel s s' → Γ.answers req x → P x s' :=
  Iff.rfl

/-- A pure computation goes on with its value, and owes its message. -/
@[simp] theorem wp_ofExcept (e : Except String α) (s : σ) :
    (ofExcept e : Code σ q ρ α).wp Γ Q s
      ↔ (∀ a, e = .ok a → Q a s) ∧ (∀ m, e = .error m → Γ.err m) := by
  cases e with
  | ok a => simp [ofExcept, wp, Outcome.Sat]
  | error m => simp [ofExcept, wp, Outcome.Sat]

/-- Two computations in a row are one after the other. -/
theorem wp_ofExcept_bind (e : Except String α) (f : α → Except String β)
    (P : β → σ → Prop) (s : σ) :
    (ofExcept (e >>= f) : Code σ q ρ β).wp Γ P s
      ↔ (ofExcept e : Code σ q ρ α).wp Γ
          (fun a s' => (ofExcept (f a) : Code σ q ρ β).wp Γ P s') s := by
  cases e with
  | ok a => exact Iff.rfl
  | error m => exact Iff.rfl

/-- A computation that has succeeded is its value. -/
theorem wp_ofExcept_ok (a : α) (s : σ) :
    (ofExcept (.ok a) : Code σ q ρ α).wp Γ Q s ↔ Q a s := Iff.rfl

/-- A pure check, as `wp_require` has it for a program's own. -/
theorem wp_ofExcept_ite (p : Prop) [Decidable p] (a : α) (e : String) (s : σ) :
    (ofExcept (if p then .ok a else .error e) : Code σ q ρ α).wp Γ Q s
      ↔ (p → Q a s) ∧ (¬p → Γ.err e) := by
  by_cases hp : p <;> simp [hp]

/-- A branch is read under its condition. -/
@[simp] theorem wp_ite (p : Prop) [Decidable p] (c d : Code σ q ρ α) (s : σ) :
    (if p then c else d).wp Γ Q s
      ↔ (p → c.wp Γ Q s) ∧ (¬p → d.wp Γ Q s) := by
  by_cases hp : p <;> simp [hp]

/-- With nothing owed, a check only gives a fact. -/
theorem wp_require_any {p : Prop} [Decidable p] {reason : String} {P : Unit → σ → Prop}
    {s : σ} (h : p → P () s) : (require p reason : Code σ q ρ Unit).wp Rely.any P s :=
  (wp_require p reason P s).2 ⟨h, fun _ => trivial⟩

/-- The rule of consequence. -/
theorem wp_mono {c : Code σ q ρ α} {s : σ} (h : c.wp Γ Q s)
    (hQ : ∀ a s', Q a s' → Q' a s') : c.wp Γ Q' s :=
  Outcome.Sat.mono h hQ

end Code

end Zstrategy.Lib
