/-
What no part of a program changes. `c.Keeps f`: from its start to its
return `c` leaves `f` of the state as it was, if the code it calls does.
The state in between is free, so a lock that is taken and given back is
kept.

`Keeps` is a class, and its instances follow the text of a program: the
reader of a development gives one instance for each write, and the rest
is found.
-/
import Zstrategy.Lib.Reentrancy

namespace Zstrategy.Lib

variable {σ q ρ ι ε α β τ : Type} {f : σ → τ}

/-- Called code leaves `f` as it was. -/
def Rely.keeping (f : σ → τ) : Rely σ q ρ :=
  ⟨fun _ => True, fun s s' => f s' = f s, fun _ _ => True, fun _ => True⟩

class Code.Keeps (f : σ → τ) (c : Code σ q ρ α) : Prop where
  keeps : ∀ s, c.wp (Rely.keeping f) (fun _ s' => f s' = f s) s

namespace Code.Keeps

-- ============================================================ the instances

instance pure (a : α) : (pure a : Code σ q ρ α).Keeps f :=
  ⟨fun _ => rfl⟩

instance read : (read : Code σ q ρ σ).Keeps f :=
  ⟨fun _ => rfl⟩

instance require (p : Prop) [Decidable p] (e : String) :
    (require p e : Code σ q ρ Unit).Keeps f :=
  ⟨fun s => (wp_require p e _ s).2 ⟨fun _ => rfl, fun _ => trivial⟩⟩

instance ofExcept (x : Except String α) : (ofExcept x : Code σ q ρ α).Keeps f :=
  ⟨fun s => (wp_ofExcept x s).2 ⟨fun _ _ => rfl, fun _ _ => trivial⟩⟩

instance ask (req : q) : (ask req : Code σ q ρ ρ).Keeps f :=
  ⟨fun _ => ⟨trivial, fun _ _ _ hkeeps _ => hkeeps⟩⟩

instance bind {c : Code σ q ρ α} {k : α → Code σ q ρ β} [hc : c.Keeps f]
    [hk : ∀ a, (k a).Keeps f] : (c >>= k).Keeps f := by
  refine ⟨fun s => (wp_bind c k _ s).2 (wp_mono (hc.keeps s) fun a s' hs' => ?_)⟩
  exact wp_mono ((hk a).keeps s') fun _ s'' hs'' => hs''.trans hs'

-- the search pays for every quantifier it goes under, and most steps return nothing

instance andThen {c : Code σ q ρ Unit} {k : Unit → Code σ q ρ β} [hc : c.Keeps f]
    [hk : (k ()).Keeps f] : (c >>= k).Keeps f := by
  have hall : ∀ a, (k a).Keeps f := fun _ => hk
  exact .bind

instance ite {p : Prop} [Decidable p] {c d : Code σ q ρ α} [hc : c.Keeps f]
    [hd : d.Keeps f] : (if p then c else d).Keeps f :=
  ⟨fun s => (wp_ite p c d s).2 ⟨fun _ => hc.keeps s, fun _ => hd.keeps s⟩⟩

/-- A write elsewhere. -/
theorem modify {g : σ → σ} (hg : ∀ s, f (g s) = f s) :
    (modify g : Code σ q ρ Unit).Keeps f :=
  ⟨hg⟩

end Code.Keeps

-- ==================================================================== runs

/-- What every entry point and the outside keep is the same at any two
points between transactions. -/
theorem System.Run.keeps {S : System σ q ρ ι ε} {P : σ → Move ρ ι ε → Prop}
    (hentry : ∀ i, (S.entry i).Keeps f)
    (houtside : ∀ e s s', S.outside e s = some s' → f s' = f s) {s s' : σ}
    (hrun : S.Run P ⟨s, []⟩ ⟨s', []⟩) : f s' = f s := by
  have hsound : S.Sound P (fun _ => True) fun s s' => f s' = f s := by
    refine ⟨fun _ => rfl, fun _ _ _ h h' => h'.trans h, ?_, ?_⟩
    · intro i s _ _ _
      refine Outcome.Sat.mono (Outcome.Sat.weaken ((hentry i).keeps s) (fun _ => id) ?_
        (fun _ _ _ => trivial) fun _ => id) fun _ _ hs' => ⟨trivial, hs'⟩
      exact fun s s' _ _ hkeeps => ⟨trivial, hkeeps⟩
    · exact fun e s s' _ _ he => ⟨trivial, houtside e s s' he⟩
  exact hrun.rel hsound trivial

/-- The system without the changes that only happen between transactions. -/
def System.busy (S : System σ q ρ ι ε) : System σ q ρ ι ε :=
  { S with outside := fun e s => if S.idle e then none else S.outside e s }

/-- A move of the busy system, or one between two transactions. -/
theorem System.step_busy {S : System σ q ρ ι ε} {c c' : Config σ q ρ} {m : Move ρ ι ε}
    (hs : S.step c m = some c') :
    S.busy.step c m = some c' ∨ ∃ e s s', m = .outside e ∧ S.idle e = true
      ∧ S.outside e s = some s' ∧ c = ⟨s, []⟩ ∧ c' = ⟨s', []⟩ := by
  cases m with
  | outside e =>
      cases hidle : S.idle e with
      | false =>
          apply Or.inl
          simpa [System.step, System.busy, hidle] using hs
      | true =>
          apply Or.inr
          obtain ⟨s, stack⟩ := c
          cases stack with
          | nil =>
              simp only [System.step, hidle, List.isEmpty_nil, Bool.not_true, Bool.and_false,
                Bool.false_eq_true, if_false] at hs
              obtain ⟨s', he, rfl⟩ := Option.map_eq_some_iff.1 hs
              exact ⟨e, s, s', rfl, hidle, he, rfl, rfl⟩
          | cons frame rest => simp [System.step, hidle] at hs
  | _ => exact Or.inl hs

/-- What holds at the start and is kept by a change between transactions
holds where the last stretch without one began. -/
theorem System.Run.last_stretch {S : System σ q ρ ι ε} {P : σ → Move ρ ι ε → Prop}
    {I : σ → Prop} {s : σ} {c : Config σ q ρ} (hI : I s)
    (hend : ∀ t t', I t → S.busy.Run P ⟨t, []⟩ ⟨t', []⟩ → I t')
    (hidle : ∀ e t t', S.idle e = true → I t → S.outside e t = some t' → I t')
    (hrun : S.Run P ⟨s, []⟩ c) : ∃ t, I t ∧ S.busy.Run P ⟨t, []⟩ c := by
  induction hrun with
  | refl => exact ⟨s, hI, .refl _⟩
  | tail m _ hP hs ih =>
      obtain ⟨t, ht, hstretch⟩ := ih
      rcases System.step_busy hs with hs | ⟨e, u, u', rfl, he, houts, rfl, rfl⟩
      · exact ⟨t, ht, .tail m hstretch hP hs⟩
      · exact ⟨u', hidle e u u' he (hend t u ht hstretch) houts, .refl _⟩

/-- An invariant of the busy system that changes between transactions keep
is an invariant of the system. -/
theorem System.Run.inv_of_busy {S : System σ q ρ ι ε} {P : σ → Move ρ ι ε → Prop}
    {I : σ → Prop} {R : σ → σ → Prop} (hS : S.busy.Sound P I R)
    (hidle : ∀ e s s', S.idle e = true → I s → S.outside e s = some s' → I s')
    {s : σ} {c : Config σ q ρ} (hI : I s) (hrun : S.Run P ⟨s, []⟩ c) : I c.world := by
  obtain ⟨t, ht, hstretch⟩ :=
    hrun.last_stretch hI (fun _ _ ht hbusy => hbusy.inv hS ht) hidle
  exact hstretch.inv hS ht

/-- What every entry point keeps, and time moves up, is moved up by a run
from one point between transactions to another. -/
theorem System.Run.keeps_up {S : System σ q ρ ι ε} {P : σ → Move ρ ι ε → Prop}
    {R : τ → τ → Prop} (hrefl : ∀ x, R x x) (htrans : ∀ x y z, R x y → R y z → R x z)
    (hentry : ∀ i, (S.entry i).Keeps f)
    (houtside : ∀ e s s', S.idle e = false → S.outside e s = some s' → f s' = f s)
    (hidle : ∀ e s s', S.idle e = true → S.outside e s = some s' → R (f s) (f s'))
    {s s' : σ} (hrun : S.Run P ⟨s, []⟩ ⟨s', []⟩) : R (f s) (f s') := by
  have hbusy : ∀ {s s' : σ}, S.busy.Run P ⟨s, []⟩ ⟨s', []⟩ → f s' = f s := by
    intro s s' h
    have hbusyEntry : ∀ i, (S.busy.entry i).Keeps f := hentry
    refine h.keeps hbusyEntry ?_
    intro e t t' he
    simp only [System.busy] at he
    split at he
    · cases he
    · rename_i hbusy
      exact houtside e t t' (by simpa using hbusy) he
  have hlast : ∃ t, R (f s) (f t) ∧ S.busy.Run P ⟨t, []⟩ ⟨s', []⟩ := by
    refine hrun.last_stretch (hrefl _) ?_ ?_
    · intro t t' hup hstretch
      rw [hbusy hstretch]
      exact hup
    · exact fun e t t' he hup houts => htrans _ _ _ hup (hidle e t t' he houts)
  obtain ⟨t, hup, hstretch⟩ := hlast
  rw [hbusy hstretch]
  exact hup

end Zstrategy.Lib
