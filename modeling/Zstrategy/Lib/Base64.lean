/-
Base64. Three bytes are four sextets; what is left over, one byte or two,
takes two sextets or three and is padded with `=`. `encode` is `btoa` and
`decode` is `atob`, which first drops white space and the padding.

The round trip is proved on sextets, where it is arithmetic on triples of
bytes, and then carried over to characters, where it is a table of 64
entries. The padding is only a matter of lengths: it is there exactly if the
number of sextets is no multiple of four.
-/
import Mathlib.Data.List.Induction

namespace Zstrategy.Lib.Base64

-- =================================================================== sextets

/-- Bytes as numbers below 64, six bits each. -/
def sextets : List UInt8 → List ℕ
  | [] => []
  | [a] => [a.toNat / 4, a.toNat % 4 * 16]
  | [a, b] => [a.toNat / 4, a.toNat % 4 * 16 + b.toNat / 16, b.toNat % 16 * 4]
  | a :: b :: c :: rest =>
      a.toNat / 4 :: (a.toNat % 4 * 16 + b.toNat / 16)
        :: (b.toNat % 16 * 4 + c.toNat / 64) :: c.toNat % 64 :: sextets rest

/-- The bytes of sextets; bits that fill no byte are dropped, and a single
sextet fills none. -/
def bytes : List ℕ → Option (List UInt8)
  | [] => some []
  | [_] => none
  | [x, y] => some [UInt8.ofNat (x * 4 + y / 16)]
  | [x, y, z] => some [UInt8.ofNat (x * 4 + y / 16), UInt8.ofNat (y % 16 * 16 + z / 4)]
  | x :: y :: z :: u :: rest => do
      let tail ← bytes rest
      pure (UInt8.ofNat (x * 4 + y / 16) :: UInt8.ofNat (y % 16 * 16 + z / 4)
        :: UInt8.ofNat (z % 4 * 64 + u) :: tail)

theorem ofNat_eq {n : ℕ} {a : UInt8} (h : n = a.toNat) : UInt8.ofNat n = a := by
  rw [h]
  exact UInt8.ofNat_toNat

theorem bytes_sextets (bs : List UInt8) : bytes (sextets bs) = some bs := by
  induction bs using sextets.induct with
  | case1 => rfl
  | case2 a =>
      have ha := a.toNat_lt
      rw [sextets, bytes, ofNat_eq (a := a) (by omega)]
  | case3 a b =>
      have ha := a.toNat_lt
      have hb := b.toNat_lt
      rw [sextets, bytes, ofNat_eq (a := a) (by omega), ofNat_eq (a := b) (by omega)]
  | case4 a b c rest ih =>
      have ha := a.toNat_lt
      have hb := b.toNat_lt
      have hc := c.toNat_lt
      rw [sextets, bytes, ih, ofNat_eq (a := a) (by omega), ofNat_eq (a := b) (by omega),
        ofNat_eq (a := c) (by omega)]
      rfl

theorem sextets_lt (bs : List UInt8) : ∀ n ∈ sextets bs, n < 64 := by
  induction bs using sextets.induct with
  | case1 => intro n hn; cases hn
  | case2 a =>
      have ha := a.toNat_lt
      simp only [sextets, List.forall_mem_cons, List.not_mem_nil, IsEmpty.forall_iff,
        implies_true, and_true]
      omega
  | case3 a b =>
      have ha := a.toNat_lt
      have hb := b.toNat_lt
      simp only [sextets, List.forall_mem_cons, List.not_mem_nil, IsEmpty.forall_iff,
        implies_true, and_true]
      omega
  | case4 a b c rest ih =>
      have ha := a.toNat_lt
      have hb := b.toNat_lt
      have hc := c.toNat_lt
      simp only [sextets, List.forall_mem_cons]
      refine ⟨by omega, by omega, by omega, by omega, ih⟩

/-- How many there are: the bits, rounded up to whole sextets. -/
theorem length_sextets (bs : List UInt8) : (sextets bs).length = (4 * bs.length + 2) / 3 := by
  induction bs using sextets.induct with
  | case1 => rfl
  | case2 a => simp [sextets]
  | case3 a b => simp [sextets]
  | case4 a b c rest ih =>
      simp only [sextets, List.length_cons, ih]
      omega

-- ================================================================== characters

def alphabet : List Char :=
  "ABCDEFGHIJKLMNOPQRSTUVWXYZabcdefghijklmnopqrstuvwxyz0123456789+/".toList

/-- The character of a sextet. -/
def charOf (n : ℕ) : Char := alphabet.getD n 'A'

/-- The sextet of a character. -/
def valueOf (c : Char) : Option ℕ := alphabet.idxOf? c

/-- White space that `atob` passes over. -/
def isBlank (c : Char) : Bool :=
  c = ' ' || c = '\t' || c = '\n' || c = '\r' || c = Char.ofNat 12

/-- A sextet is read back from its character, which is neither padding nor
white space. -/
theorem valueOf_charOf : ∀ n < 64, valueOf (charOf n) = some n ∧ charOf n ≠ '='
    ∧ isBlank (charOf n) = false := by decide

/-- `btoa`. -/
def encode (bs : List UInt8) : List Char :=
  (sextets bs).map charOf ++ List.replicate ((3 - bs.length % 3) % 3) '='

/-- Without up to two `=` in front. -/
def dropEquals : List Char → List Char
  | '=' :: '=' :: cs => cs
  | '=' :: cs => cs
  | cs => cs

/-- Without up to two `=` at the end, if the groups are whole. -/
def dropPadding (cs : List Char) : List Char :=
  if cs.length % 4 = 0 then (dropEquals cs.reverse).reverse else cs

/-- `atob`; `none` if it throws. -/
def decode (text : List Char) : Option (List UInt8) := do
  let values ← (dropPadding (text.filter fun c => !isBlank c)).mapM valueOf
  bytes values

-- ================================================================== round trip

theorem dropEquals_of_ne {cs : List Char} (h : ∀ c ∈ cs, c ≠ '=') : dropEquals cs = cs := by
  cases cs with
  | nil => rfl
  | cons c cs =>
      have hc : c ≠ '=' := h c (.head _)
      unfold dropEquals
      split
      · rename_i heq
        exact absurd (List.cons.inj heq).1 hc
      · rename_i heq
        exact absurd (List.cons.inj heq).1 hc
      · rfl

theorem dropEquals_append {cs : List Char} (h : ∀ c ∈ cs, c ≠ '=') {k : ℕ} (hk : k ≤ 2) :
    dropEquals (List.replicate k '=' ++ cs) = cs := by
  have hone : dropEquals ('=' :: cs) = cs := by
    cases cs with
    | nil => rfl
    | cons c cs =>
        have hc : c ≠ '=' := h c (.head _)
        unfold dropEquals
        split
        · rename_i heq
          exact absurd (List.cons.inj (List.cons.inj heq).2).1 hc
        · rename_i heq
          exact (List.cons.inj heq).2.symm
        · rename_i hne
          exact absurd rfl (hne _)
  have hcases : k = 0 ∨ k = 1 ∨ k = 2 := by omega
  rcases hcases with rfl | rfl | rfl
  · exact dropEquals_of_ne h
  · exact hone
  · rfl

theorem dropPadding_append {cs : List Char} (h : ∀ c ∈ cs, c ≠ '=') {k : ℕ} (hk : k ≤ 2)
    (hlen : (cs ++ List.replicate k '=').length % 4 = 0) :
    dropPadding (cs ++ List.replicate k '=') = cs := by
  have hrev : ∀ c ∈ cs.reverse, c ≠ '=' := fun c hc => h c (List.mem_reverse.1 hc)
  rw [dropPadding, if_pos hlen, List.reverse_append, List.reverse_replicate,
    dropEquals_append hrev hk, List.reverse_reverse]

theorem mapM_valueOf {ns : List ℕ} (h : ∀ n ∈ ns, n < 64) :
    (ns.map charOf).mapM valueOf = some ns := by
  induction ns with
  | nil => rfl
  | cons n ns ih =>
      obtain ⟨hn, hns⟩ := List.forall_mem_cons.1 h
      rw [List.map_cons, List.mapM_cons, (valueOf_charOf n hn).1, ih hns]
      rfl

theorem decode_encode (bs : List UInt8) : decode (encode bs) = some bs := by
  have hchar : ∀ c ∈ (sextets bs).map charOf, c ≠ '=' ∧ isBlank c = false := by
    intro c hc
    obtain ⟨n, hn, rfl⟩ := List.mem_map.1 hc
    exact (valueOf_charOf n (sextets_lt bs n hn)).2
  have hblank : (encode bs).filter (fun c => !isBlank c) = encode bs := by
    refine List.filter_eq_self.2 fun c hc => ?_
    rcases List.mem_append.1 hc with hc | hc
    · rw [(hchar c hc).2]
      rfl
    · rw [List.eq_of_mem_replicate hc]
      rfl
  have hlen : (encode bs).length % 4 = 0 := by
    rw [encode, List.length_append, List.length_map, length_sextets, List.length_replicate]
    have hrest : bs.length % 3 = 0 ∨ bs.length % 3 = 1 ∨ bs.length % 3 = 2 := by omega
    rcases hrest with hr | hr | hr <;> rw [hr] <;> omega
  rw [decode, hblank]
  rw [encode] at hlen ⊢
  rw [dropPadding_append (fun c hc => (hchar c hc).1) (by omega) hlen,
    mapM_valueOf (sextets_lt bs)]
  exact bytes_sextets bs

example : encode [77, 97] = "TWE=".toList ∧ decode "T W\nE=".toList = some [77, 97] := by decide

end Zstrategy.Lib.Base64
