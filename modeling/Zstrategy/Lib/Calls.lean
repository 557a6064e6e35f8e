/-
Calls that keep control. `returned` is what a program makes of a state if
it returns without handing control out; two programs that agree on it do
the same to whoever calls them, whatever texts they revert with.
`inTurn` is a list of calls made one after the other, each of which has to
return.

A revert undoes everything, so two programs that return in the same states
with the same results are the same to a caller, and the texts of their
reverts are all that may differ.
-/
import Zstrategy.Lib.Keeps

namespace Zstrategy.Lib

variable {σ q ρ ι α β : Type}

/-- The result and the state after a program that calls nobody. -/
def Outcome.returned : Outcome σ q ρ α → Option (α × σ)
  | .done a s => some (a, s)
  | _ => none

/-- The outcome hands no control out. -/
def Outcome.stays : Outcome σ q ρ α → Bool
  | .call _ _ _ => false
  | _ => true

namespace Outcome

variable {o : Outcome σ q ρ α}

theorem returned_eq_some {a : α} {s : σ} : o.returned = some (a, s) ↔ o = .done a s := by
  cases o with
  | done b t => simp [returned]
  | revert e => simp [returned]
  | call t req k => simp [returned]

/-- What keeps control and does not return reverts. -/
theorem reverts_of_stays (h : o.stays = true) (hnone : o.returned = none) :
    ∃ e, o = .revert e := by
  cases o with
  | done b t => cases hnone
  | revert e => exact ⟨e, rfl⟩
  | call t req k => cases h

theorem returned_bind (f : α → σ → Outcome σ q ρ β) :
    (o.bind f).returned = o.returned.bind fun p => (f p.1 p.2).returned := by
  cases o <;> rfl

theorem stays_bind {f : α → σ → Outcome σ q ρ β} (ho : o.stays = true)
    (hf : ∀ a s, o = .done a s → (f a s).stays = true) : (o.bind f).stays = true := by
  cases o with
  | done b t => exact hf b t rfl
  | revert e => rfl
  | call t req k => cases ho

end Outcome

namespace Code

variable {p : Prop} [Decidable p] {e : String} {s : σ}

theorem returned_bind (c : Code σ q ρ α) (f : α → Code σ q ρ β) (s : σ) :
    ((c >>= f) s).returned = (c s).returned.bind fun r => (f r.1 r.2).returned :=
  Outcome.returned_bind _

theorem returned_require_bind (f : Unit → Code σ q ρ β) :
    ((require p e >>= f) s).returned = if p then (f () s).returned else none := by
  rw [returned_bind]
  unfold require
  split
  · rfl
  · rfl

theorem returned_read_bind (f : σ → Code σ q ρ β) :
    ((read >>= f) s).returned = (f s s).returned := rfl

theorem returned_modify_bind (g : σ → σ) (f : Unit → Code σ q ρ β) :
    ((modify g >>= f) s).returned = (f () (g s)).returned := rfl

/-- A program that returned met what it checks. -/
theorem of_returned {c : Code σ q ρ α} {a : α} {s' : σ} {P : Prop}
    (h : (c s).returned = some (a, s')) (hP : c.wp Rely.any (fun _ _ => P) s) : P := by
  have hdone := Outcome.returned_eq_some.1 h
  apply Outcome.Sat.of_canReturn hP
  rw [hdone]
  trivial

theorem Keeps.returned {τ : Type} {f : σ → τ} {c : Code σ q ρ α} {a : α} {s' : σ}
    (hc : c.Keeps f) (h : (c s).returned = some (a, s')) : f s' = f s := by
  have hkeeps := hc.keeps s
  unfold wp at hkeeps
  rw [Outcome.returned_eq_some.1 h] at hkeeps
  exact hkeeps

/-- A program that calls nobody, from any state. -/
class Stays (c : Code σ q ρ α) : Prop where
  stays : ∀ s, (c s).stays = true

namespace Stays

instance pure (a : α) : (pure a : Code σ q ρ α).Stays := ⟨fun _ => rfl⟩

instance read : (read : Code σ q ρ σ).Stays := ⟨fun _ => rfl⟩

instance modify (f : σ → σ) : (modify f : Code σ q ρ Unit).Stays := ⟨fun _ => rfl⟩

instance require (p : Prop) [Decidable p] (e : String) :
    (require p e : Code σ q ρ Unit).Stays := by
  refine ⟨fun s => ?_⟩
  unfold Code.require
  split
  · rfl
  · rfl

instance ofExcept (x : Except String α) : (ofExcept x : Code σ q ρ α).Stays := by
  cases x with
  | ok a => exact ⟨fun _ => rfl⟩
  | error e => exact ⟨fun _ => rfl⟩

instance bind {c : Code σ q ρ α} {k : α → Code σ q ρ β} [hc : c.Stays]
    [hk : ∀ a, (k a).Stays] : (c >>= k).Stays :=
  ⟨fun s => Outcome.stays_bind (hc.stays s) fun a t _ => (hk a).stays t⟩

end Stays

theorem stays_require_bind {f : Unit → Code σ q ρ β} (hf : p → (f () s).stays = true) :
    ((require p e >>= f) s).stays = true := by
  refine Outcome.stays_bind ((Stays.require p e).stays s) fun a t h => ?_
  unfold require at h
  split at h
  · rename_i hp
    cases h
    exact hf hp
  · cases h

-- =============================================================== in a sequence

/-- The state after these calls, if each returns. -/
def inTurn (c : ι → Code σ q ρ Unit) : List ι → σ → Option σ
  | [], s => some s
  | i :: is, s => (c i s).returned.bind fun r => inTurn c is r.2

theorem inTurn_map {κ : Type} {c : ι → Code σ q ρ Unit} {d : κ → Code σ q ρ Unit} {f : κ → ι}
    (h : ∀ k s, (c (f k) s).returned = (d k s).returned) (ks : List κ) (s : σ) :
    inTurn c (ks.map f) s = inTurn d ks s := by
  induction ks generalizing s with
  | nil => rfl
  | cons k ks ih =>
      rw [List.map_cons, inTurn, inTurn, h]
      congr 1
      funext r
      exact ih r.2

/-- Calls of which the first does not return. -/
theorem inTurn_eq_none {c : ι → Code σ q ρ Unit} {is : List ι} (hne : is ≠ [])
    (h : ∀ i ∈ is, (c i s).returned = none) : inTurn c is s = none := by
  cases is with
  | nil => exact absurd rfl hne
  | cons i is =>
      rw [inTurn, h i List.mem_cons_self]
      rfl

end Code

end Zstrategy.Lib
