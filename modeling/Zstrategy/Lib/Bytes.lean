/-
Byte strings of fixed width. Numbers are written big-endian in a given
number of bytes; a *row* is a list of numbers, each with its own width,
and `pack` writes them one after the other. A row is determined by its
bytes once the widths are known and every number fits its width
(`pack_inj`), which is all that "packed encodings do not collide" means.

The last section is about arrays that are filled piece by piece, front to
back, at offsets computed by hand: `Holds a bs` says that `a` starts with
`bs` and is zero after it, and `Holds.fill` moves it past one piece.
-/
import Mathlib.Data.List.Induction
import Mathlib.Tactic.NormNum
import Mathlib.Tactic.Ring

namespace Zstrategy.Lib

-- ================================================================ big-endian

/-- The low `w` bytes of `n`, most significant first. -/
def toBE : ℕ → ℕ → List UInt8
  | 0, _ => []
  | w + 1, n => toBE w (n / 256) ++ [UInt8.ofNat n]

/-- The number with the given bytes, most significant first. -/
def ofBE (bs : List UInt8) : ℕ := bs.foldl (fun n b => 256 * n + b.toNat) 0

theorem ofBE_concat (bs : List UInt8) (b : UInt8) :
    ofBE (bs ++ [b]) = 256 * ofBE bs + b.toNat := by
  rw [ofBE, List.foldl_append]
  rfl

@[simp] theorem length_toBE (w n : ℕ) : (toBE w n).length = w := by
  induction w generalizing n with
  | zero => rfl
  | succ w ih => rw [toBE, List.length_append, ih, List.length_singleton]

theorem ofBE_lt (bs : List UInt8) : ofBE bs < 256 ^ bs.length := by
  induction bs using List.reverseRecOn with
  | nil => exact Nat.one_pos
  | append_singleton bs b ih =>
      have hb : b.toNat < 256 := b.toNat_lt
      rw [ofBE_concat, List.length_append, List.length_singleton, pow_succ]
      omega

theorem ofBE_toBE (w n : ℕ) : ofBE (toBE w n) = n % 256 ^ w := by
  induction w generalizing n with
  | zero => rw [pow_zero, Nat.mod_one]; rfl
  | succ w ih =>
      have hlow : (UInt8.ofNat n).toNat = n % 256 := UInt8.toNat_ofNat'
      rw [toBE, ofBE_concat, ih, hlow, pow_succ', Nat.mod_mul]
      ring

theorem ofBE_toBE_of_lt {w n : ℕ} (h : n < 256 ^ w) : ofBE (toBE w n) = n := by
  rw [ofBE_toBE, Nat.mod_eq_of_lt h]

theorem toBE_inj {w n m : ℕ} (hn : n < 256 ^ w) (hm : m < 256 ^ w)
    (h : toBE w n = toBE w m) : n = m := by
  have hof := congrArg ofBE h
  rwa [ofBE_toBE_of_lt hn, ofBE_toBE_of_lt hm] at hof

/-- The first `a` of `a + b` bytes hold the part above `256 ^ b`. -/
theorem toBE_add (a b n : ℕ) : toBE (a + b) n = toBE a (n / 256 ^ b) ++ toBE b n := by
  induction b generalizing n with
  | zero => simp [toBE]
  | succ b ih =>
      rw [← Nat.add_assoc, toBE, ih, toBE, List.append_assoc, Nat.div_div_eq_div_mul,
        pow_succ']

/-- All bytes are zero exactly when the number has none but higher bits. -/
theorem toBE_eq_zero {w n : ℕ} (h : n < 256 ^ w) :
    (∀ b ∈ toBE w n, b = 0) ↔ n = 0 := by
  have hzero : ∀ w, toBE w 0 = List.replicate w 0 := by
    intro w
    induction w with
    | zero => rfl
    | succ w ih => rw [toBE, Nat.zero_div, ih, List.replicate_succ']; rfl
  constructor
  · intro hall
    refine toBE_inj h (pow_pos (by decide) w) ?_
    rw [hzero, List.eq_replicate_iff]
    exact ⟨length_toBE w n, hall⟩
  · rintro rfl b hb
    rw [hzero] at hb
    exact List.eq_of_mem_replicate hb

-- ======================================================================= rows

/-- Numbers with the widths to write them in. -/
abbrev Row := List (ℕ × ℕ)

/-- Every number fits its width. -/
def Row.Fits (row : Row) : Prop := ∀ p ∈ row, p.2 < 256 ^ p.1

/-- The numbers of a row, written one after the other. -/
def pack (row : Row) : List UInt8 := row.flatMap fun p => toBE p.1 p.2

@[simp] theorem pack_nil : pack [] = [] := rfl

@[simp] theorem pack_cons (w n : ℕ) (row : Row) :
    pack ((w, n) :: row) = toBE w n ++ pack row := by
  rw [pack, List.flatMap_cons]
  rfl

/-- Rows of the same widths pack to the same bytes only if they are equal. -/
theorem pack_inj {r s : Row} (hw : r.map Prod.fst = s.map Prod.fst) (hr : r.Fits)
    (hs : s.Fits) (h : pack r = pack s) : r = s := by
  induction r generalizing s with
  | nil =>
      cases s with
      | nil => rfl
      | cons q s => cases hw
  | cons p r ih =>
      cases s with
      | nil => cases hw
      | cons q s =>
          obtain ⟨w, n⟩ := p
          obtain ⟨w', m⟩ := q
          obtain ⟨rfl, hrest⟩ : w = w' ∧ r.map Prod.fst = s.map Prod.fst := by
            simpa using hw
          rw [pack_cons, pack_cons] at h
          have hlen : (toBE w n).length = (toBE w m).length := by simp
          obtain ⟨hhead, htail⟩ := List.append_inj h hlen
          obtain ⟨hn, hr⟩ := List.forall_mem_cons.1 hr
          obtain ⟨hm, hs⟩ := List.forall_mem_cons.1 hs
          have hnm : n = m := toBE_inj hn hm hhead
          rw [hnm, ih hrest hr hs htail]

-- ===================================================================== arrays

/-- `n` in an array of `w` bytes. -/
def bytesBE (w n : ℕ) : Vector UInt8 w :=
  ⟨(toBE w n).toArray, by rw [List.size_toArray, length_toBE]⟩

@[simp] theorem toList_bytesBE (w n : ℕ) : (bytesBE w n).toList = toBE w n := rfl

/-- The entries from `m` on, read one by one. -/
theorem toList_ofFn_add {α : Type} {m k : ℕ} (x : Vector α (m + k)) :
    (Vector.ofFn fun i : Fin k => x[m + i.val]).toList = x.toList.drop m := by
  apply List.ext_getElem
  · rw [Vector.length_toList, List.length_drop, Vector.length_toList]
    omega
  · intro i hi hi'
    simp

/-- A condition on the first `m` entries, checked one by one. -/
theorem forall_getElem_lt {α : Type} {m k : ℕ} (x : Vector α (m + k)) (p : α → Prop) :
    (∀ i : Fin m, p x[i.val]) ↔ ∀ b ∈ x.toList.take m, p b := by
  constructor
  · intro h b hb
    obtain ⟨i, hi, rfl⟩ := List.getElem_of_mem hb
    rw [List.length_take] at hi
    simpa using h ⟨i, by omega⟩
  · intro h i
    refine h _ (List.mem_take_iff_getElem.2 ⟨i.val, ?_, by simp⟩)
    rw [Vector.length_toList]
    omega

variable {n k : ℕ}

/-- Write the bytes one by one, the first at `offset`. -/
def fillFrom (a : Vector UInt8 n) (offset : ℕ) : List UInt8 → Vector UInt8 n
  | [] => a
  | b :: bs => fillFrom (a.setIfInBounds offset b) (offset + 1) bs

/-- `for i in 0..k { a[offset + i] = src[i]; }` -/
def fill (a : Vector UInt8 n) (offset : ℕ) (src : Vector UInt8 k) : Vector UInt8 n :=
  fillFrom a offset src.toList

/-- The array starts with `bs` and is zero after it. -/
def Holds (a : Vector UInt8 n) (bs : List UInt8) : Prop :=
  bs.length ≤ n ∧ a.toList = bs ++ List.replicate (n - bs.length) 0

variable {a : Vector UInt8 n} {bs : List UInt8}

theorem Holds.zero : Holds (Vector.replicate n 0) [] :=
  ⟨Nat.zero_le n, rfl⟩

/-- One more byte. -/
theorem Holds.set (h : Holds a bs) (offset : ℕ) (b : UInt8) (hoff : bs.length = offset)
    (hlt : offset < n) : Holds (a.setIfInBounds offset b) (bs ++ [b]) := by
  subst hoff
  obtain ⟨m, hm⟩ : ∃ m, n - bs.length = m + 1 := ⟨n - bs.length - 1, by omega⟩
  refine ⟨by rw [List.length_append, List.length_singleton]; omega, ?_⟩
  rw [Vector.toList_setIfInBounds, h.2, hm, List.set_append_right _ _ le_rfl, Nat.sub_self,
    List.replicate_succ, List.set_cons_zero, List.append_assoc, List.length_append,
    List.length_singleton, show n - (bs.length + 1) = m by omega]
  rfl

theorem Holds.fillFrom (h : Holds a bs) (src : List UInt8)
    (hle : bs.length + src.length ≤ n) :
    Holds (fillFrom a bs.length src) (bs ++ src) := by
  induction src generalizing a bs with
  | nil => rwa [List.append_nil]
  | cons b src ih =>
      rw [List.length_cons] at hle
      have hnext := ih (h.set _ b rfl (by omega)) (by
        rw [List.length_append, List.length_singleton]; omega)
      rwa [List.append_assoc, List.length_append, List.length_singleton] at hnext

/-- One more piece, written where the last one ended. -/
theorem Holds.fill (h : Holds a bs) (offset : ℕ) (src : Vector UInt8 k)
    (hoff : bs.length = offset) (hle : offset + k ≤ n) :
    Holds (fill a offset src) (bs ++ src.toList) := by
  subst hoff
  exact h.fillFrom src.toList (by rwa [Vector.length_toList])

/-- A full array. -/
theorem Holds.toList_eq (h : Holds a bs) (hlen : bs.length = n) : a.toList = bs := by
  rw [h.2, hlen, Nat.sub_self, List.replicate_zero, List.append_nil]

end Zstrategy.Lib
