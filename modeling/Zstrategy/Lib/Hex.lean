/-
Hexadecimal digits of bytes, as node's `Buffer` writes and reads them:
`toString("hex")` in lower case, and `from(text, "hex")`, which stops at
the first pair that is not two digits.
-/
import Mathlib.Data.Nat.Notation

namespace Zstrategy.Lib.Hex

/-- The digit of a number below 16. -/
def digit (n : ℕ) : Char := "0123456789abcdef".toList.getD n '0'

/-- The value of a digit, in either case. -/
def value (c : Char) : Option ℕ :=
  if '0' ≤ c ∧ c ≤ '9' then some (c.toNat - '0'.toNat)
  else if 'a' ≤ c ∧ c ≤ 'f' then some (c.toNat - 'a'.toNat + 10)
  else if 'A' ≤ c ∧ c ≤ 'F' then some (c.toNat - 'A'.toNat + 10)
  else none

def encode (bytes : List UInt8) : List Char :=
  bytes.flatMap fun b => [digit (b.toNat / 16), digit (b.toNat % 16)]

def decode : List Char → List UInt8
  | c :: d :: rest =>
      match value c, value d with
      | some x, some y => UInt8.ofNat (16 * x + y) :: decode rest
      | _, _ => []
  | _ => []

theorem value_digit : ∀ n < 16, value (digit n) = some n := by decide

theorem decode_encode (bytes : List UInt8) : decode (encode bytes) = bytes := by
  induction bytes with
  | nil => rfl
  | cons b bytes ih =>
      have hb := b.toNat_lt
      have hhigh : value (digit (b.toNat / 16)) = some (b.toNat / 16) :=
        value_digit _ (by omega)
      have hlow : value (digit (b.toNat % 16)) = some (b.toNat % 16) :=
        value_digit _ (by omega)
      have hsum : UInt8.ofNat (16 * (b.toNat / 16) + b.toNat % 16) = b := by
        rw [Nat.div_add_mod]
        exact UInt8.ofNat_toNat
      rw [encode, List.flatMap_cons, ← encode]
      simp only [List.cons_append, List.nil_append, decode, hhigh, hlow, hsum, ih]

end Zstrategy.Lib.Hex
