/-
One call of a re-entrant machine, seen from inside the program: the
requests it made, the replies it got, and how it came out. `Ends` is that
view, with any relation for what happens between a request and its reply.

# Calls of a machine

`during` is the relation a machine provides: a run that starts and ends at
the same stack height, without the changes that only happen between
transactions. With it, transcripts and runs say the same: `Ends.run` turns
a transcript into a run that brings the call to its end, and `Run.ends`
finds in every run that comes back below a call the transcript with which
the call ended.

# Blindness

A program is `Blind` to a change of replies if it cannot tell a changed
reply from the original. Then every transcript has a twin with the changed
replies and the same end (`Ends.replace`).
-/
import Zstrategy.Lib.Reentrancy

namespace Zstrategy.Lib

variable {σ q ρ ι ε α β : Type}

-- ============================================================== transcripts

/-- How a program ends: what it asked and was told, and what it returned
with, or `none` if it reverted. -/
inductive Outcome.Ends (R : σ → σ → Prop) (A : q → ρ → Prop) :
    Outcome σ q ρ α → List (q × ρ) → Option (α × σ) → Prop
  | revert (e : String) : Ends R A (.revert e) [] none
  | done (a : α) (s : σ) : Ends R A (.done a s) [] (some (a, s))
  /-- The called code reverts. -/
  | fail (s : σ) (req : q) (k : σ → ρ → Outcome σ q ρ α) :
      Ends R A (.call s req k) [] none
  | call {s s' : σ} {req : q} {x : ρ} {k : σ → ρ → Outcome σ q ρ α}
      {tr : List (q × ρ)} {res : Option (α × σ)} :
      R s s' → A req x → Ends R A (k s' x) tr res →
      Ends R A (.call s req k) ((req, x) :: tr) res

/-- The state a call leaves, if it started in `snap`. -/
def after (snap : σ) : Option (α × σ) → σ
  | none => snap
  | some (_, s) => s

variable {R : σ → σ → Prop} {A A' : q → ρ → Prop}

/-- Only the replies of the transcript matter. -/
theorem Outcome.Ends.mono {o : Outcome σ q ρ α} {tr : List (q × ρ)}
    {res : Option (α × σ)} (h : o.Ends R A tr res) (hA : ∀ t ∈ tr, A' t.1 t.2) :
    o.Ends R A' tr res := by
  induction h with
  | revert e => exact .revert e
  | done a s => exact .done a s
  | fail s req k => exact .fail s req k
  | call hR _ _ ih =>
      obtain ⟨hx, htr⟩ := List.forall_mem_cons.1 hA
      exact .call hR hx (ih htr)

/-- A call that ends well meets what every call that ends well meets. -/
theorem Outcome.Ends.post {o : Outcome σ q ρ α} {tr : List (q × ρ)} {res : Option (α × σ)}
    {Q : α → σ → Prop} (h : o.Ends R A tr res) (ho : o.Sat Rely.any Q) :
    ∀ r ∈ res, Q r.1 r.2 := by
  induction h with
  | revert e => nofun
  | done a s =>
      rintro r ⟨⟩
      exact ho
  | fail s req k => nofun
  | call _ _ _ ih => exact ih (ho.2 _ _ trivial trivial trivial)

-- ================================================================ blindness

/-- Every request meets `p`, and what follows a reply also follows the
reply changed by `g`. -/
def Outcome.Blind (p : q → Prop) (g : ρ → ρ) : Outcome σ q ρ α → Prop
  | .revert _ => True
  | .done _ _ => True
  | .call _ req k => p req ∧ ∀ s x, k s (g x) = k s x ∧ (k s x).Blind p g

/-- `Blind` from every state. -/
def Code.Blind (p : q → Prop) (g : ρ → ρ) (c : Code σ q ρ α) : Prop :=
  ∀ s, (c s).Blind p g

variable {p : q → Prop} {g : ρ → ρ}

/-- The twin of a transcript, with every reply changed. -/
theorem Outcome.Ends.replace {o : Outcome σ q ρ α} {tr : List (q × ρ)}
    {res : Option (α × σ)} (h : o.Ends R A tr res) (hblind : o.Blind p g)
    (hA : ∀ req x, p req → A req x → A req (g x)) :
    o.Ends R A (tr.map fun t => (t.1, g t.2)) res := by
  induction h with
  | revert e => exact .revert e
  | done a s => exact .done a s
  | fail s req k => exact .fail s req k
  | call hR hx _ ih =>
      obtain ⟨hreq, hk⟩ := hblind
      refine .call hR (hA _ _ hreq hx) ?_
      rw [(hk _ _).1]
      exact ih (hk _ _).2

/-- The transcript in which every request is answered with `x` at once. -/
theorem Outcome.Ends.of_answered {x : ρ} {o : Outcome σ q ρ α} (hblind : o.Blind p g)
    (hR : ∀ s, R s s) (hA : ∀ req, p req → A req x) (h : o.answered x = true) :
    ∃ tr res, o.Ends R A tr (some res) ∧ ∀ t ∈ tr, t.2 = x := by
  induction o with
  | revert e => cases h
  | done a s => exact ⟨[], (a, s), .done a s, by simp⟩
  | call s req k ih =>
      obtain ⟨hreq, hk⟩ := hblind
      obtain ⟨tr, res, hends, hall⟩ := ih s x (hk s x).2 h
      refine ⟨(req, x) :: tr, res, .call (hR s) (hA req hreq) hends, ?_⟩
      rintro t (_ | ⟨_, ht⟩)
      · rfl
      · exact hall t ht

theorem Outcome.Blind.bind {o : Outcome σ q ρ α} {f : α → σ → Outcome σ q ρ β}
    (ho : o.Blind p g) (hf : ∀ a s, (f a s).Blind p g) : (o.bind f).Blind p g := by
  induction o with
  | revert e => trivial
  | done a s => exact hf a s
  | call s req k ih =>
      refine ⟨ho.1, fun s' x => ⟨?_, ih s' x (ho.2 s' x).2⟩⟩
      show (k s' (g x)).bind f = (k s' x).bind f
      rw [(ho.2 s' x).1]

namespace Code.Blind

theorem pure (a : α) : Blind p g (pure a : Code σ q ρ α) := fun _ => trivial

theorem bind {c : Code σ q ρ α} {f : α → Code σ q ρ β} (hc : c.Blind p g)
    (hf : ∀ a, (f a).Blind p g) : Blind p g (c >>= f) :=
  fun s => (hc s).bind fun a s' => hf a s'

theorem require (P : Prop) [Decidable P] (reason : String) :
    Blind p g (require P reason : Code σ q ρ Unit) := by
  intro s
  unfold Code.require
  split
  · trivial
  · trivial

theorem read : Blind p g (read : Code σ q ρ σ) := fun _ => trivial

theorem modify (f : σ → σ) : Blind p g (modify f : Code σ q ρ Unit) := fun _ => trivial

theorem ofExcept (e : Except String α) : Blind p g (ofExcept e : Code σ q ρ α) := by
  cases e with
  | ok a => exact fun _ => trivial
  | error m => exact fun _ => trivial

theorem ite {P : Prop} [Decidable P] {c d : Code σ q ρ α} (hc : c.Blind p g)
    (hd : d.Blind p g) : Blind p g (if P then c else d) := by
  split
  · exact hc
  · exact hd

/-- A request whose reply is read only up to the change. -/
theorem ask {req : q} {f : ρ → Code σ q ρ α} (hreq : p req) (hg : ∀ x, f (g x) = f x)
    (hf : ∀ x, (f x).Blind p g) : Blind p g (ask req >>= f) :=
  fun _ => ⟨hreq, fun s x => ⟨congrFun (hg x) s, hf x s⟩⟩

end Code.Blind

-- ========================================================= calls of a machine

variable (S : System σ q ρ ι ε)

/-- The move can happen inside a transaction. -/
def System.Busy : Move ρ ι ε → Prop
  | .outside e => S.idle e = false
  | _ => True

/-- What can happen between a request and its reply. -/
def System.during (s s' : σ) : Prop :=
  S.Run (fun _ m => S.Busy m) ⟨s, []⟩ ⟨s', []⟩

variable {S} {P : σ → Move ρ ι ε → Prop}

theorem settle_append (snap : σ) (top rest : List (Frame σ q ρ))
    (o : Outcome σ q ρ Unit) :
    settle snap (top ++ rest) o
      = ⟨(settle snap top o).world, (settle snap top o).stack ++ rest⟩ := by
  cases o with
  | revert e => rfl
  | done a s => rfl
  | call s req k => rfl

/-- Unfinished calls below do not matter to a step inside a transaction. -/
theorem System.step_append {c c' : Config σ q ρ} {m : Move ρ ι ε} (hm : S.Busy m)
    (hs : S.step c m = some c') (rest : List (Frame σ q ρ)) :
    S.step ⟨c.world, c.stack ++ rest⟩ m = some ⟨c'.world, c'.stack ++ rest⟩ := by
  obtain ⟨w, stack⟩ := c
  cases m with
  | enter i =>
      simp only [System.step] at hs ⊢
      split at hs
      case isTrue hi =>
        cases hs
        rw [if_pos hi, settle_append]
      case isFalse => cases hs
  | checkpoint =>
      cases hs
      rfl
  | outside e =>
      simp only [System.step, show S.idle e = false from hm, Bool.false_and] at hs ⊢
      obtain ⟨s, he, rfl⟩ := Option.map_eq_some_iff.1 hs
      simp [he]
  | answer x =>
      rcases stack with - | ⟨f, top⟩
      · cases hs
      rcases f with ⟨snap, req, k⟩ | snap
      · simp only [System.step, List.cons_append] at hs ⊢
        split at hs
        case isTrue hx =>
          cases hs
          rw [if_pos hx, settle_append]
        case isFalse => cases hs
      · cases hs
  | fail =>
      rcases stack with - | ⟨f, top⟩
      · cases hs
      rcases f with ⟨snap, req, k⟩ | snap
      · cases hs
        rfl
      · cases hs
  | commit =>
      rcases stack with - | ⟨f, top⟩
      · cases hs
      rcases f with ⟨snap, req, k⟩ | snap
      · cases hs
      · cases hs
        rfl
  | rollback =>
      rcases stack with - | ⟨f, top⟩
      · cases hs
      rcases f with ⟨snap, req, k⟩ | snap
      · cases hs
      · cases hs
        rfl

theorem System.Run.append {c c' : Config σ q ρ}
    (h : S.Run (fun _ m => S.Busy m) c c') (rest : List (Frame σ q ρ)) :
    S.Run anyMove ⟨c.world, c.stack ++ rest⟩ ⟨c'.world, c'.stack ++ rest⟩ := by
  induction h with
  | refl => exact .refl _
  | tail m _ hm hs ih => exact .tail m ih trivial (System.step_append hm hs rest)

/-- Every transcript is a run that brings the call to its end. -/
theorem Outcome.Ends.run {o : Outcome σ q ρ Unit} {tr : List (q × ρ)}
    {res : Option (Unit × σ)}
    (h : o.Ends S.during (fun req x => S.answers req x = true) tr res) (snap : σ)
    (stack : List (Frame σ q ρ)) :
    S.Run anyMove (settle snap stack o) ⟨after snap res, stack⟩ := by
  induction h with
  | revert e => exact .refl _
  | done a s => exact .refl _
  | fail s req k => exact .single (m := .fail) trivial rfl
  | @call s s' req x k tr res hR hx _ ih =>
      have hin := System.Run.append hR (.inner snap req k :: stack)
      refine hin.trans (.trans (.single (m := .answer x) trivial ?_) ih)
      simp only [System.step, List.nil_append]
      rw [if_pos hx]

/-- A step above an unfinished call is a step of its own, unless it
serves that call. -/
theorem System.step_of_append {w : σ} {top rest : List (Frame σ q ρ)} {f : Frame σ q ρ}
    {m : Move ρ ι ε} {c' : Config σ q ρ} (hs : S.step ⟨w, top ++ f :: rest⟩ m = some c') :
    (∃ c, S.Busy m ∧ S.step ⟨w, top⟩ m = some c ∧ c' = ⟨c.world, c.stack ++ f :: rest⟩)
      ∨ top = [] ∧ S.step ⟨w, f :: rest⟩ m = some c'
        ∧ (m = .fail ∨ (∃ x, m = .answer x) ∨ m = .commit ∨ m = .rollback) := by
  have own : ∀ {c}, S.Busy m → S.step ⟨w, top⟩ m = some c →
      ∃ c, S.Busy m ∧ S.step ⟨w, top⟩ m = some c
        ∧ c' = ⟨c.world, c.stack ++ f :: rest⟩ := by
    intro c hm hc
    have happ := System.step_append hm hc (f :: rest)
    exact ⟨c, hm, hc, Option.some.inj (hs.symm.trans happ)⟩
  cases m with
  | enter i =>
      simp only [System.step] at hs
      split at hs
      case isTrue hi => exact .inl (own trivial (if_pos hi))
      case isFalse => cases hs
  | checkpoint => exact .inl (own trivial rfl)
  | outside e =>
      cases hidle : S.idle e with
      | true => simp [System.step, hidle] at hs
      | false =>
          simp only [System.step, hidle, Bool.false_and] at hs
          obtain ⟨s, he, -⟩ := Option.map_eq_some_iff.1 hs
          exact .inl (own hidle (by simp [System.step, hidle, he]; rfl))
  | answer x =>
      rcases top with - | ⟨f', top⟩
      · exact .inr ⟨rfl, hs, .inr (.inl ⟨x, rfl⟩)⟩
      rcases f' with ⟨snap, req, k⟩ | snap
      · simp only [System.step, List.cons_append] at hs
        split at hs
        case isTrue hx => exact .inl (own trivial (if_pos hx))
        case isFalse => cases hs
      · cases hs
  | fail =>
      rcases top with - | ⟨f', top⟩
      · exact .inr ⟨rfl, hs, .inl rfl⟩
      rcases f' with ⟨snap, req, k⟩ | snap
      · exact .inl (own trivial rfl)
      · cases hs
  | commit =>
      rcases top with - | ⟨f', top⟩
      · exact .inr ⟨rfl, hs, .inr (.inr (.inl rfl))⟩
      rcases f' with ⟨snap, req, k⟩ | snap
      · cases hs
      · exact .inl (own trivial rfl)
  | rollback =>
      rcases top with - | ⟨f', top⟩
      · exact .inr ⟨rfl, hs, .inr (.inr (.inr rfl))⟩
      rcases f' with ⟨snap, req, k⟩ | snap
      · cases hs
      · exact .inl (own trivial rfl)

/-- The machine's reading of `Ends`. -/
abbrev System.Ends (S : System σ q ρ ι ε) (o : Outcome σ q ρ Unit)
    (tr : List (q × ρ)) (res : Option (Unit × σ)) : Prop :=
  o.Ends S.during (fun req x => S.answers req x = true) tr res

/-- In a run below which a call was opened, the call is still open, or it
has ended with some transcript. -/
theorem System.Run.open_or_ended {o : Outcome σ q ρ Unit} {snap : σ}
    {stack : List (Frame σ q ρ)} {c : Config σ q ρ}
    (hrun : S.Run P (settle snap stack o) c) :
    (∃ top s req k tr, c.stack = top ++ .inner snap req k :: stack
        ∧ S.Run (fun _ m => S.Busy m) ⟨s, []⟩ ⟨c.world, top⟩
        ∧ ∀ tr' res, S.Ends (.call s req k) tr' res → S.Ends o (tr ++ tr') res)
      ∨ ∃ tr res, S.Ends o tr res ∧ S.Run P ⟨after snap res, stack⟩ c := by
  -- how a call stands that has just been started or resumed with `o'`
  have resumed : ∀ o' tr, (∀ tr' res, S.Ends o' tr' res → S.Ends o (tr ++ tr') res) →
      (∃ top s req k tr, (settle snap stack o').stack = top ++ .inner snap req k :: stack
          ∧ S.Run (fun _ m => S.Busy m) ⟨s, []⟩ ⟨(settle snap stack o').world, top⟩
          ∧ ∀ tr' res, S.Ends (.call s req k) tr' res → S.Ends o (tr ++ tr') res)
        ∨ ∃ tr res, S.Ends o tr res
          ∧ S.Run P ⟨after snap res, stack⟩ (settle snap stack o') := by
    intro o' tr hcont
    cases o' with
    | revert e => exact .inr ⟨_, none, hcont _ _ (.revert e), .refl _⟩
    | done a s => exact .inr ⟨_, some (a, s), hcont _ _ (.done a s), .refl _⟩
    | call s req k => exact .inl ⟨[], s, req, k, tr, rfl, .refl _, hcont⟩
  induction hrun with
  | refl => exact resumed o [] fun _ _ h => h
  | @tail c c' m _ hP hs ih =>
      rcases ih with ⟨top, s, req, k, tr, hstack, hin, hcont⟩ | ⟨tr, res, hends, hrest⟩
      · obtain ⟨w, cstack⟩ := c
        subst hstack
        rcases System.step_of_append hs with ⟨c₁, hm, hs₁, rfl⟩ | ⟨rfl, hs, hm⟩
        · exact .inl ⟨_, s, req, k, tr, rfl, .tail m hin hm hs₁, hcont⟩
        · rcases hm with rfl | ⟨x, rfl⟩ | rfl | rfl
          · cases hs
            exact .inr ⟨_, none, hcont _ _ (.fail s req k), .refl _⟩
          · simp only [System.step] at hs
            split at hs
            case isTrue hx =>
              cases hs
              refine resumed _ (tr ++ [(req, x)]) fun tr' res h => ?_
              rw [List.append_assoc]
              exact hcont _ _ (.call hin hx h)
            case isFalse => cases hs
          · cases hs
          · cases hs
      · exact .inr ⟨tr, res, hends, .tail m hrest hP hs⟩

/-- A run that comes back below a call has ended the call with some
transcript. -/
theorem System.Run.ends {o : Outcome σ q ρ Unit} {snap w : σ}
    {stack : List (Frame σ q ρ)} (hrun : S.Run P (settle snap stack o) ⟨w, stack⟩) :
    ∃ tr res, S.Ends o tr res ∧ S.Run P ⟨after snap res, stack⟩ ⟨w, stack⟩ := by
  rcases hrun.open_or_ended with ⟨top, s, req, k, tr, hstack, -⟩ | hended
  · have hlen := congrArg List.length hstack
    simp at hlen
    omega
  · exact hended

end Zstrategy.Lib
