/-
Finite-key stores and their totals: what one write does to a sum over all
keys. A store is a plain function from keys to values; `update2` writes
one cell of a two-level store. The totals are over every key of a finite
type, so a ledger's total changes by exactly what the write changes in
its cell, and nothing needs a list of the keys in use.
-/
import Mathlib.Algebra.BigOperators.Ring.Finset
import Mathlib.Algebra.Order.BigOperators.Group.Finset
import Mathlib.Data.Fintype.Basic

namespace Zstrategy.Lib

variable {α β γ : Type} [DecidableEq α] [DecidableEq β]

open Function (update)

-- ========================================================= two-level stores

/-- Write one cell of a two-level store. -/
def update2 (f : α → β → γ) (a : α) (b : β) (c : γ) : α → β → γ :=
  update f a (update (f a) b c)

theorem update2_apply (f : α → β → γ) (a : α) (b : β) (c : γ) (x : α) (y : β) :
    update2 f a b c x y = if x = a ∧ y = b then c else f x y := by
  unfold update2
  by_cases hx : x = a
  · subst hx
    by_cases hy : y = b <;> simp [hy]
  · simp [hx]

@[simp] theorem update2_same (f : α → β → γ) (a : α) (b : β) (c : γ) :
    update2 f a b c a b = c := by
  simp [update2_apply]

theorem update2_of_ne (f : α → β → γ) {a x : α} {b y : β} (c : γ)
    (h : ¬(x = a ∧ y = b)) : update2 f a b c x y = f x y := by
  simp [update2_apply, h]

-- ================================================================== totals

section Totals

variable {α : Type} [Fintype α]

/-- A cell is part of its total. -/
theorem le_sum (f : α → ℕ) (a : α) : f a ≤ ∑ x, f x :=
  Finset.single_le_sum (fun _ _ => Nat.zero_le _) (Finset.mem_univ a)

variable [DecidableEq α]

/-- One write moves the total by what it changes in its cell. -/
theorem sum_update (f : α → ℕ) (a : α) (v : ℕ) :
    ∑ x, update f a v x + f a = ∑ x, f x + v := by
  rw [Finset.sum_update_of_mem (Finset.mem_univ a),
    ← Finset.sum_sdiff (Finset.subset_univ {a}) (f := f), Finset.sum_singleton]
  omega

/-- Two stores that differ at one key have totals that differ by it. -/
theorem sum_eq_of_eq_off {f g : α → ℕ} (a : α) (h : ∀ x, x ≠ a → f x = g x) :
    ∑ x, f x + g a = ∑ x, g x + f a := by
  have hf : f = update g a (f a) := by
    funext x
    by_cases hx : x = a
    · subst hx; simp
    · simp [hx, h x hx]
  have hsum := sum_update g a (f a)
  rw [← hf] at hsum
  exact hsum

end Totals

end Zstrategy.Lib
