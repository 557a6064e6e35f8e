/-
What the members of a list hold of one thing. `f` says of each member what
it holds, if anything; a process is at most one holder as long as
`l.filterMap f` has at most one element, so the lemmas here say what
becomes of that list when one member goes on as another.
-/
import Mathlib.Data.List.Basic

namespace Zstrategy.Lib

variable {α β : Type} {f : α → Option β} {l : List α} {i : ℕ} {a b : α}

/-- It goes on with what it held. -/
theorem filterMap_set_same (ha : l[i]? = some a) (hf : f b = f a) :
    (l.set i b).filterMap f = l.filterMap f := by
  induction l generalizing i with
  | nil => rfl
  | cons x l ih =>
      cases i with
      | zero =>
          rw [List.getElem?_cons_zero, Option.some.injEq] at ha
          rw [List.set_cons_zero, List.filterMap_cons, List.filterMap_cons, hf, ha]
      | succ i =>
          rw [List.set_cons_succ, List.filterMap_cons, List.filterMap_cons,
            ih (by simpa using ha)]

/-- The only holder goes on with something else, or nobody holds anything
and one member takes hold. -/
theorem filterMap_set_sole (ha : l[i]? = some a) (hl : l.filterMap f = (f a).toList) :
    (l.set i b).filterMap f = (f b).toList := by
  induction l generalizing i with
  | nil => simp at ha
  | cons x l ih =>
      cases i with
      | zero =>
          rw [List.getElem?_cons_zero, Option.some.injEq] at ha
          subst ha
          rw [List.filterMap_cons] at hl
          have hrest : l.filterMap f = [] := by
            cases hx : f x with
            | none =>
                rw [hx] at hl
                exact hl
            | some y =>
                rw [hx] at hl
                exact (List.cons.inj hl).2
          rw [List.set_cons_zero, List.filterMap_cons, hrest]
          cases f b <;> rfl
      | succ i =>
          have ha' : l[i]? = some a := by simpa using ha
          rw [List.filterMap_cons] at hl
          have hx : f x = none := by
            cases hx : f x with
            | none => rfl
            | some y =>
                -- then `a` holds nothing, and `x` is not nobody
                rw [hx] at hl
                have hnone : l.filterMap f = [] := by
                  cases hfa : f a with
                  | none =>
                      rw [hfa] at hl
                      cases hl
                  | some z =>
                      rw [hfa] at hl
                      exact (List.cons.inj hl).2
                have hmem := List.filterMap_eq_nil_iff.1 hnone a (List.mem_of_getElem? ha')
                rw [hmem] at hl
                cases hl
          rw [hx] at hl
          rw [List.set_cons_succ, List.filterMap_cons, hx]
          exact ih ha' hl

/-- One of them holds all there is. -/
theorem filterMap_eq_of_holds {x y : β} (ha : a ∈ l) (hx : f a = some x)
    (hl : l.filterMap f = [y]) : x = y := by
  have hmem : x ∈ l.filterMap f := List.mem_filterMap.2 ⟨a, ha, hx⟩
  rw [hl] at hmem
  exact List.mem_singleton.1 hmem

/-- Behind the only holder nobody holds anything. -/
theorem filterMap_tail {x y : β} (ha : f a = some x) (hl : (a :: l).filterMap f = [y]) :
    l.filterMap f = [] := by
  rw [List.filterMap_cons, ha] at hl
  exact (List.cons.inj hl).2

/-- Two holders are one member. -/
theorem holder_unique {j : ℕ} {x y z : β} (ha : l[i]? = some a) (hx : f a = some x)
    (hb : l[j]? = some b) (hy : f b = some y) (hl : l.filterMap f = [z]) : i = j := by
  induction l generalizing i j with
  | nil => simp at ha
  | cons c l ih =>
      have hnobody : ∀ {d : α} {k : ℕ} {v : β}, l[k]? = some d → f d = some v →
          l.filterMap f ≠ [] := by
        intro d k v hd hv hnil
        have hnone := List.filterMap_eq_nil_iff.1 hnil d (List.mem_of_getElem? hd)
        rw [hv] at hnone
        cases hnone
      cases i with
      | zero =>
          rw [List.getElem?_cons_zero, Option.some.injEq] at ha
          subst ha
          cases j with
          | zero => rfl
          | succ j => exact absurd (filterMap_tail hx hl) (hnobody (by simpa using hb) hy)
      | succ i =>
          have ha' : l[i]? = some a := by simpa using ha
          have hc : f c = none := by
            cases hc : f c with
            | none => rfl
            | some v => exact absurd (filterMap_tail hc hl) (hnobody ha' hx)
          cases j with
          | zero =>
              rw [List.getElem?_cons_zero, Option.some.injEq] at hb
              rw [hb, hy] at hc
              cases hc
          | succ j =>
              rw [List.filterMap_cons, hc] at hl
              rw [ih ha' (by simpa using hb) hl]

end Zstrategy.Lib
