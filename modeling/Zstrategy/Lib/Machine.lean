/-
Labelled machines: processes that take atomic steps in any order. A label
says which process moves and what its environment answers, so the step is
a function and a run is a list of labels.

`Run P` is the runs in which every step meets `P`, a condition on the
state the step is taken in. `Run.inv` is the induction: what every such
step keeps holds in every state such a run reaches.
-/
import Mathlib.Data.Option.Basic

namespace Zstrategy.Lib

/-- What each label does; `none` if it cannot happen here. -/
structure Machine (σ ℓ : Type) where
  step : ℓ → σ → Option σ

namespace Machine

variable {σ ℓ : Type} {m : Machine σ ℓ} {P Q : σ → ℓ → Prop}

/-- Runs whose steps all meet `P`. -/
inductive Run (m : Machine σ ℓ) (P : σ → ℓ → Prop) : σ → σ → Prop
  | refl (s : σ) : Run m P s s
  | tail {s s' s'' : σ} (l : ℓ) :
      Run m P s s' → P s' l → m.step l s' = some s'' → Run m P s s''

/-- No condition on the steps. -/
def anyStep : σ → ℓ → Prop := fun _ _ => True

theorem Run.trans {s s' s'' : σ} (h : m.Run P s s') (h' : m.Run P s' s'') :
    m.Run P s s'' := by
  induction h' with
  | refl => exact h
  | tail l _ hP hs ih => exact .tail l ih hP hs

/-- What every step keeps holds at the end of every run. -/
theorem Run.inv {I : σ → Prop}
    (hstep : ∀ s l s', I s → P s l → m.step l s = some s' → I s')
    {s s' : σ} (h : m.Run P s s') (hI : I s) : I s' := by
  induction h with
  | refl => exact hI
  | tail l _ hP hs ih => exact hstep _ l _ ih hP hs

/-- What every step from an `I`-state relates is related along the run. -/
theorem Run.rel {I : σ → Prop} {R : σ → σ → Prop} (hrefl : ∀ s, R s s)
    (htrans : ∀ s s' s'', R s s' → R s' s'' → R s s'')
    (hstep : ∀ s l s', I s → P s l → m.step l s = some s' → I s' ∧ R s s')
    {s s' : σ} (h : m.Run P s s') (hI : I s) : I s' ∧ R s s' := by
  induction h with
  | refl => exact ⟨hI, hrefl _⟩
  | tail l _ hP hs ih =>
      obtain ⟨hI', hR⟩ := ih
      obtain ⟨hI'', hR'⟩ := hstep _ l _ hI' hP hs
      exact ⟨hI'', htrans _ _ _ hR hR'⟩

-- ================================================================= execution

/-- Take the steps in order. -/
def play (m : Machine σ ℓ) : List ℓ → σ → Option σ
  | [], s => some s
  | l :: ls, s => (m.step l s).bind (m.play ls)

theorem Run.of_play {ls : List ℓ} {s s' : σ} (hP : ∀ s, ∀ l ∈ ls, P s l)
    (h : m.play ls s = some s') : m.Run P s s' := by
  induction ls generalizing s with
  | nil =>
      cases h
      exact .refl _
  | cons l ls ih =>
      obtain ⟨t, ht, hrest⟩ := Option.bind_eq_some_iff.1 h
      have hfirst : m.Run P s t := .tail l (.refl s) (hP s l List.mem_cons_self) ht
      exact hfirst.trans (ih (fun s l hl => hP s l (List.mem_cons_of_mem _ hl)) hrest)

/-- Take the steps in order, each only if it passes `c`. -/
def playIf (m : Machine σ ℓ) (c : σ → ℓ → Bool) : List ℓ → σ → Option σ
  | [], s => some s
  | l :: ls, s => if c s l then (m.step l s).bind (m.playIf c ls) else none

theorem Run.of_playIf {c : σ → ℓ → Bool} (hc : ∀ s l, c s l = true → P s l) {ls : List ℓ}
    {s s' : σ} (h : m.playIf c ls s = some s') : m.Run P s s' := by
  induction ls generalizing s with
  | nil =>
      cases h
      exact .refl _
  | cons l ls ih =>
      simp only [playIf] at h
      split at h
      · rename_i hcheck
        obtain ⟨t, ht, hrest⟩ := Option.bind_eq_some_iff.1 h
        have hfirst : m.Run P s t := .tail l (.refl s) (hc s l hcheck) ht
        exact hfirst.trans (ih hrest)
      · cases h

/-- Where the steps end, if they can be taken. -/
def endOf (m : Machine σ ℓ) (c : σ → ℓ → Bool) (ls : List ℓ) (s : σ) : σ :=
  (m.playIf c ls s).getD s

theorem Run.endOf {c : σ → ℓ → Bool} (hc : ∀ s l, c s l = true → P s l) {ls : List ℓ}
    {s : σ} (h : (m.playIf c ls s).isSome) : m.Run P s (m.endOf c ls s) := by
  obtain ⟨s', hs⟩ := Option.isSome_iff_exists.1 h
  unfold Machine.endOf
  rw [hs]
  exact .of_playIf hc hs

end Machine

end Zstrategy.Lib
