/-
Go slices held in variables. A slice is the front of a backing array; an
append writes past its end if the array has room there, and a deletion
shifts the array in place, so a slice that shares its array with another
changes under it.

`Apart` is the discipline that makes slices behave like lists: no two
variables hold slices of one array. Every operation below keeps it, and
under it changes what its own variable holds, and nothing else.

The lemmas come in pairs for each operation: what the variable that is
written holds afterwards, as a list (`view_…_self`), and that every other
variable holds what it held (`view_…_of_ne`). `Apart.…` says that the
discipline survives. The two ways in which an array comes to change, `write`
and `grow`, are done first; the operations are one or the other.
-/
import Mathlib.Data.List.Basic
import Mathlib.Logic.Function.Basic

namespace Zstrategy.Lib

open Function (update)

/-- The first `len` elements of an array. -/
structure Slice where
  array : ℕ
  len : ℕ
  deriving DecidableEq

/-- The arrays ever made, and the slice in each variable; `none` is nil. -/
structure Slices (κ α : Type) where
  arrays : List (List α)
  var : κ → Option Slice

namespace Slices

variable {κ α : Type}

/-- No array, and every variable nil. -/
def empty : Slices κ α := ⟨[], fun _ => none⟩

/-- The array behind a slice, to its capacity. -/
def behind (s : Slices κ α) (sl : Slice) : List α := s.arrays.getD sl.array []

/-- The elements of the slice in `x`. -/
def view (s : Slices κ α) (x : κ) : List α :=
  match s.var x with
  | some sl => (s.behind sl).take sl.len
  | none => []

section Writes

variable [DecidableEq κ]

/-- Put `arr` at the `k`-th array, and its first `n` elements in `x`. -/
def write (s : Slices κ α) (x : κ) (k n : ℕ) (arr : List α) : Slices κ α :=
  ⟨s.arrays.set k arr, update s.var x (some ⟨k, n⟩)⟩

/-- Copy `x` to a new array, `a` behind it, and room for `spare` more. -/
def grow [Inhabited α] (s : Slices κ α) (x : κ) (a : α) (spare : ℕ) : Slices κ α :=
  ⟨s.arrays ++ [s.view x ++ a :: List.replicate spare default],
    update s.var x (some ⟨s.arrays.length, (s.view x).length + 1⟩)⟩

/-- `x = append(x, a)`. How much a new array is larger than needed is up to
the runtime. -/
def append [Inhabited α] (s : Slices κ α) (x : κ) (a : α) (spare : ℕ) : Slices κ α :=
  match s.var x with
  | some sl =>
      if sl.len < (s.behind sl).length then
        s.write x sl.array (sl.len + 1) ((s.behind sl).set sl.len a)
      else s.grow x a spare
  | none => s.grow x a spare

/-- `x = append(x[:i], x[i+1:]...)`: what follows moves one down, and the
last element stays behind the end. -/
def deleteAt (s : Slices κ α) (x : κ) (i : ℕ) : Slices κ α :=
  match s.var x with
  | some sl =>
      s.write x sl.array (sl.len - 1)
        ((s.view x).eraseIdx i ++ (s.behind sl).drop (sl.len - 1))
  | none => s

/-- `x = nil`. -/
def clear (s : Slices κ α) (x : κ) : Slices κ α :=
  ⟨s.arrays, update s.var x none⟩

/-- `y = x; x = nil`. -/
def move (s : Slices κ α) (x y : κ) : Slices κ α :=
  ⟨s.arrays, update (update s.var y (s.var x)) x none⟩

end Writes

/-- Every slice is within its array, and no two are of one array. -/
structure Apart (s : Slices κ α) : Prop where
  fits : ∀ x sl, s.var x = some sl →
    sl.array < s.arrays.length ∧ sl.len ≤ (s.behind sl).length
  apart : ∀ x y sl sl', s.var x = some sl → s.var y = some sl' →
    sl.array = sl'.array → x = y

variable {s : Slices κ α} {x y : κ}

/-- Without variables nothing is shared. -/
theorem apart_empty : (empty : Slices κ α).Apart :=
  ⟨fun _ _ h => absurd h (by simp [empty]), fun _ _ _ _ h => absurd h (by simp [empty])⟩

/-- A nil slice is an empty list. -/
theorem view_of_nil (h : s.var x = none) : s.view x = [] := by
  unfold view
  rw [h]

/-- A slice shows the front of its array. -/
theorem view_of_var {sl : Slice} (h : s.var x = some sl) :
    s.view x = (s.behind sl).take sl.len := by
  unfold view
  rw [h]

/-- As long as its length says: it lies within its array. -/
theorem Apart.length_view (hs : s.Apart) {sl : Slice} (h : s.var x = some sl) :
    (s.view x).length = sl.len := by
  rw [view_of_var h, List.length_take]
  exact Nat.min_eq_left (hs.fits x sl h).2

variable [DecidableEq κ]

-- ============================================================ one array written

section Write

variable {k n : ℕ} {arr : List α}

/-- Other arrays stay. -/
theorem behind_write_of_ne {sl : Slice} (h : sl.array ≠ k) :
    (s.write x k n arr).behind sl = s.behind sl := by
  unfold behind write
  rw [List.getD_eq_getElem?_getD, List.getD_eq_getElem?_getD, List.getElem?_set_ne h.symm]

/-- The array that is written is the written one. -/
theorem behind_write_self (hk : k < s.arrays.length) (m : ℕ) :
    (s.write x k n arr).behind ⟨k, m⟩ = arr := by
  unfold behind write
  rw [List.getD_eq_getElem?_getD, List.getElem?_set_self hk]
  rfl

/-- The variable that is written shows its front. -/
theorem view_write_self (hk : k < s.arrays.length) :
    (s.write x k n arr).view x = arr.take n := by
  have hvar : (s.write x k n arr).var x = some ⟨k, n⟩ := Function.update_self _ _ _
  rw [view_of_var hvar, behind_write_self hk]

/-- The array is that of `x` before. -/
theorem Apart.write (hs : s.Apart) {sl : Slice} (hx : s.var x = some sl)
    (hn : n ≤ arr.length) : (s.write x sl.array n arr).Apart := by
  obtain ⟨hk, -⟩ := hs.fits x sl hx
  refine ⟨?_, ?_⟩
  · intro y sl' hy
    by_cases hxy : y = x
    · rw [hxy] at hy
      have hvar : (s.write x sl.array n arr).var x = some ⟨sl.array, n⟩ :=
        Function.update_self _ _ _
      rw [hvar] at hy
      cases hy
      rw [behind_write_self hk]
      unfold Slices.write
      rw [List.length_set]
      exact ⟨hk, hn⟩
    · have hvar : (s.write x sl.array n arr).var y = s.var y :=
        Function.update_of_ne hxy _ _
      rw [hvar] at hy
      have hne : sl'.array ≠ sl.array := by
        intro heq
        exact hxy (hs.apart y x sl' sl hy hx heq)
      rw [behind_write_of_ne hne]
      unfold Slices.write
      rw [List.length_set]
      exact hs.fits y sl' hy
  · intro y z sl₁ sl₂ hy hz heq
    have hold : ∀ {u : κ} {v : Slice}, (s.write x sl.array n arr).var u = some v →
        ∃ v', s.var u = some v' ∧ v'.array = v.array := by
      intro u v hu
      by_cases hxu : u = x
      · rw [hxu] at hu ⊢
        have hvar : (s.write x sl.array n arr).var x = some ⟨sl.array, n⟩ :=
          Function.update_self _ _ _
        rw [hvar] at hu
        cases hu
        exact ⟨sl, hx, rfl⟩
      · have hvar : (s.write x sl.array n arr).var u = s.var u :=
          Function.update_of_ne hxu _ _
        rw [hvar] at hu
        exact ⟨v, hu, rfl⟩
    obtain ⟨v₁, hv₁, h₁⟩ := hold hy
    obtain ⟨v₂, hv₂, h₂⟩ := hold hz
    exact hs.apart y z v₁ v₂ hv₁ hv₂ (by rw [h₁, h₂, heq])

/-- No other variable shows anything of it. -/
theorem Apart.view_write_of_ne (hs : s.Apart) {sl : Slice} (hx : s.var x = some sl)
    (hy : y ≠ x) : (s.write x sl.array n arr).view y = s.view y := by
  have hvar : (s.write x sl.array n arr).var y = s.var y := Function.update_of_ne hy _ _
  cases hold : s.var y with
  | none => rw [view_of_nil hold, view_of_nil (hvar.trans hold)]
  | some sl' =>
      have hne : sl'.array ≠ sl.array := by
        intro heq
        exact hy (hs.apart y x sl' sl hold hx heq)
      rw [view_of_var hold, view_of_var (hvar.trans hold), behind_write_of_ne hne]

end Write

-- ============================================================== one array added

section Grow

variable [Inhabited α] {a : α} {spare : ℕ}

/-- The arrays there were stay. -/
theorem behind_grow_of_lt {sl : Slice} (h : sl.array < s.arrays.length) :
    (s.grow x a spare).behind sl = s.behind sl := by
  unfold behind grow
  rw [List.getD_eq_getElem?_getD, List.getD_eq_getElem?_getD, List.getElem?_append_left h]

/-- The new array starts with what the variable showed. -/
theorem behind_grow_self (m : ℕ) : (s.grow x a spare).behind ⟨s.arrays.length, m⟩
    = s.view x ++ a :: List.replicate spare default := by
  unfold behind grow
  rw [List.getD_eq_getElem?_getD, List.getElem?_append_right (Nat.le_refl _), Nat.sub_self]
  rfl

/-- The variable shows that, and the value appended. -/
theorem view_grow_self : (s.grow x a spare).view x = s.view x ++ [a] := by
  have hvar : (s.grow x a spare).var x = some ⟨s.arrays.length, (s.view x).length + 1⟩ :=
    Function.update_self _ _ _
  rw [view_of_var hvar, behind_grow_self, List.take_length_add_append]
  rfl

/-- No other variable has the new array. -/
theorem Apart.view_grow_of_ne (hs : s.Apart) (hy : y ≠ x) :
    (s.grow x a spare).view y = s.view y := by
  have hvar : (s.grow x a spare).var y = s.var y := Function.update_of_ne hy _ _
  cases hold : s.var y with
  | none => rw [view_of_nil hold, view_of_nil (hvar.trans hold)]
  | some sl =>
      rw [view_of_var hold, view_of_var (hvar.trans hold),
        behind_grow_of_lt (hs.fits y sl hold).1]

/-- A new array is shared with nobody. -/
theorem Apart.grow (hs : s.Apart) : (s.grow x a spare).Apart := by
  have hself : (s.grow x a spare).var x
      = some ⟨s.arrays.length, (s.view x).length + 1⟩ := Function.update_self _ _ _
  have hother : ∀ {u : κ}, u ≠ x → (s.grow x a spare).var u = s.var u :=
    fun hu => Function.update_of_ne hu _ _
  have hlen : (s.grow x a spare).arrays.length = s.arrays.length + 1 := by
    unfold Slices.grow
    rw [List.length_append, List.length_singleton]
  refine ⟨?_, ?_⟩
  · intro y sl hy
    by_cases hxy : y = x
    · rw [hxy, hself] at hy
      cases hy
      rw [behind_grow_self, hlen, List.length_append, List.length_cons]
      dsimp only
      omega
    · rw [hother hxy] at hy
      obtain ⟨hlt, hle⟩ := hs.fits y sl hy
      rw [behind_grow_of_lt hlt, hlen]
      omega
  · intro y z sl sl' hy hz heq
    by_cases hxy : y = x
    · by_cases hxz : z = x
      · rw [hxy, hxz]
      · rw [hxy, hself] at hy
        rw [hother hxz] at hz
        cases hy
        have hlt := (hs.fits z sl' hz).1
        change s.arrays.length = sl'.array at heq
        omega
    · rw [hother hxy] at hy
      have hlt := (hs.fits y sl hy).1
      by_cases hxz : z = x
      · rw [hxz, hself] at hz
        cases hz
        change sl.array = s.arrays.length at heq
        omega
      · rw [hother hxz] at hz
        exact hs.apart y z sl sl' hy hz heq

end Grow

-- ============================================================== the operations

section Operations

variable [Inhabited α] {a : α} {spare : ℕ}

/-- An append keeps variables apart, with room in the array or without. -/
theorem Apart.append (hs : s.Apart) : (s.append x a spare).Apart := by
  unfold Slices.append
  cases hx : s.var x with
  | none => exact hs.grow
  | some sl =>
      dsimp only
      split
      · rename_i hroom
        apply hs.write hx
        rw [List.length_set]
        exact hroom
      · exact hs.grow

/-- It appends, as on lists. -/
theorem Apart.view_append_self (hs : s.Apart) :
    (s.append x a spare).view x = s.view x ++ [a] := by
  unfold Slices.append
  cases hx : s.var x with
  | none => exact view_grow_self
  | some sl =>
      dsimp only
      split
      · rename_i hroom
        have hlen : ((s.behind sl).take sl.len).length = sl.len := by
          rw [List.length_take]
          exact Nat.min_eq_left (Nat.le_of_lt hroom)
        rw [view_write_self (hs.fits x sl hx).1, view_of_var hx,
          List.set_eq_take_append_cons_drop, if_pos hroom]
        have htake : ((s.behind sl).take sl.len ++ a :: (s.behind sl).drop (sl.len + 1)).take
            (((s.behind sl).take sl.len).length + 1) = (s.behind sl).take sl.len ++ [a] :=
          List.take_length_add_append 1
        rwa [hlen] at htake
      · exact view_grow_self

/-- It changes no other variable. -/
theorem Apart.view_append_of_ne (hs : s.Apart) (hy : y ≠ x) :
    (s.append x a spare).view y = s.view y := by
  unfold Slices.append
  cases hx : s.var x with
  | none => exact hs.view_grow_of_ne hy
  | some sl =>
      dsimp only
      split
      · exact hs.view_write_of_ne hx hy
      · exact hs.view_grow_of_ne hy

/-- Nor what another variable points to. -/
theorem var_append_of_ne (hy : y ≠ x) : (s.append x a spare).var y = s.var y := by
  unfold append
  cases s.var x with
  | none => exact Function.update_of_ne hy _ _
  | some sl =>
      dsimp only
      split
      · exact Function.update_of_ne hy _ _
      · exact Function.update_of_ne hy _ _

end Operations

variable {i : ℕ}

/-- A deletion changes no other variable's pointer. -/
theorem var_deleteAt_of_ne (hy : y ≠ x) : (s.deleteAt x i).var y = s.var y := by
  unfold deleteAt
  cases s.var x with
  | none => rfl
  | some sl => exact Function.update_of_ne hy _ _

/-- It keeps variables apart. -/
theorem Apart.deleteAt (hs : s.Apart) (hi : i < (s.view x).length) :
    (s.deleteAt x i).Apart := by
  unfold Slices.deleteAt
  cases hx : s.var x with
  | none => exact hs
  | some sl =>
      apply hs.write hx
      rw [List.length_append, List.length_eraseIdx_of_lt hi, hs.length_view hx]
      omega

/-- It deletes, as on lists. -/
theorem Apart.view_deleteAt_self (hs : s.Apart) (hi : i < (s.view x).length) :
    (s.deleteAt x i).view x = (s.view x).eraseIdx i := by
  unfold Slices.deleteAt
  cases hx : s.var x with
  | none =>
      dsimp only
      rw [view_of_nil hx]
      rfl
  | some sl =>
      dsimp only
      have hlen : ((s.view x).eraseIdx i).length = sl.len - 1 := by
        rw [List.length_eraseIdx_of_lt hi, hs.length_view hx]
      rw [view_write_self (hs.fits x sl hx).1, ← hlen, List.take_left']
      rfl

/-- It changes no other variable. -/
theorem Apart.view_deleteAt_of_ne (hs : s.Apart) (hy : y ≠ x) :
    (s.deleteAt x i).view y = s.view y := by
  unfold Slices.deleteAt
  cases hx : s.var x with
  | none => rfl
  | some sl => exact hs.view_write_of_ne hx hy

/-- A cleared variable is nil. -/
theorem var_clear_self : (s.clear x).var x = none := Function.update_self _ _ _

/-- The others keep their pointers. -/
theorem var_clear_of_ne (hy : y ≠ x) : (s.clear x).var y = s.var y :=
  Function.update_of_ne hy _ _

/-- A variable less keeps the others apart. -/
theorem Apart.clear (hs : s.Apart) : (s.clear x).Apart := by
  have hold : ∀ {u : κ} {sl : Slice}, (s.clear x).var u = some sl → s.var u = some sl := by
    intro u sl hu
    by_cases hxu : u = x
    · rw [hxu, var_clear_self] at hu
      cases hu
    · rwa [var_clear_of_ne hxu] at hu
  exact ⟨fun y sl hy => hs.fits y sl (hold hy),
    fun y z sl sl' hy hz => hs.apart y z sl sl' (hold hy) (hold hz)⟩

/-- A cleared variable shows nothing. -/
@[simp] theorem view_clear_self : (s.clear x).view x = [] :=
  view_of_nil var_clear_self

/-- The others show what they showed. -/
theorem view_clear_of_ne (hy : y ≠ x) : (s.clear x).view y = s.view y := by
  unfold view
  rw [var_clear_of_ne hy]
  rfl

section Move

variable {z : κ}

/-- The variable moved from is nil. -/
theorem var_move_src : (s.move x y).var x = none := Function.update_self _ _ _

/-- The variable moved to has its slice. -/
theorem var_move_dst (hxy : x ≠ y) : (s.move x y).var y = s.var x := by
  have hy : (s.move x y).var y = update s.var y (s.var x) y :=
    Function.update_of_ne hxy.symm _ _
  rw [hy, Function.update_self]

/-- The others keep theirs. -/
theorem var_move_of_ne (hx : z ≠ x) (hy : z ≠ y) : (s.move x y).var z = s.var z := by
  have hz : (s.move x y).var z = update s.var y (s.var x) z := Function.update_of_ne hx _ _
  rw [hz, Function.update_of_ne hy]

/-- A slice that moves is not shared. -/
theorem Apart.move (hs : s.Apart) (hxy : x ≠ y) : (s.move x y).Apart := by
  -- where each slice was before: that of `y` was in `x`
  have hold : ∀ {u : κ} {sl : Slice}, (s.move x y).var u = some sl →
      u ≠ x ∧ s.var (if u = y then x else u) = some sl := by
    intro u sl hu
    have hux : u ≠ x := by
      intro heq
      rw [heq, var_move_src] at hu
      cases hu
    refine ⟨hux, ?_⟩
    by_cases huy : u = y
    · rw [if_pos huy]
      rwa [huy, var_move_dst hxy] at hu
    · rw [if_neg huy]
      rwa [var_move_of_ne hux huy] at hu
  refine ⟨fun u sl hu => hs.fits _ sl (hold hu).2, ?_⟩
  intro u v sl sl' hu hv heq
  obtain ⟨hux, hu⟩ := hold hu
  obtain ⟨hvx, hv⟩ := hold hv
  have hsame := hs.apart _ _ sl sl' hu hv heq
  by_cases huy : u = y
  · by_cases hvy : v = y
    · rw [huy, hvy]
    · rw [if_pos huy, if_neg hvy] at hsame
      exact absurd hsame.symm hvx
  · by_cases hvy : v = y
    · rw [if_neg huy, if_pos hvy] at hsame
      exact absurd hsame hux
    · rwa [if_neg huy, if_neg hvy] at hsame

/-- The variable moved from shows nothing. -/
@[simp] theorem view_move_src : (s.move x y).view x = [] :=
  view_of_nil var_move_src

/-- The variable moved to shows what the other showed. -/
theorem view_move_dst (hxy : x ≠ y) : (s.move x y).view y = s.view x := by
  unfold view
  rw [var_move_dst hxy]
  rfl

/-- The others show what they showed. -/
theorem view_move_of_ne (hx : z ≠ x) (hy : z ≠ y) : (s.move x y).view z = s.view z := by
  unfold view
  rw [var_move_of_ne hx hy]
  rfl

end Move

end Slices

end Zstrategy.Lib
