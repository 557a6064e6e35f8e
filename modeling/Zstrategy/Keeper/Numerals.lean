/-
The numbers on the wire. A bigint is printed by `toString`, and whoever
reads the text gets the bigint back: `BigInt(text)` in the keeper, and
`SetString` in the backend. Hexadecimal words are read by `BigInt` too,
after their `0x`.

Both readers add up digits, so the digits are the business of
`readDigits`. What is left for each of them is that no digit is taken for
something else: for a blank that is trimmed, for a sign, or for the letter
of a radix prefix.
-/
import Zstrategy.Backend.MonitorService
import Zstrategy.Keeper.Json
import Zstrategy.Lib.Numerals

namespace Zstrategy

open Lib

variable {text : String} {n : ℕ}

/-- The digits of a printed number. -/
theorem toList_toString (n : ℕ) : (toString n).toList = Nat.toDigits 10 n := Nat.toList_repr

theorem toString_ne_empty (n : ℕ) : toString n ≠ "" := by
  rw [Nat.toString_eq_repr]
  exact Nat.repr_ne_empty

-- ================================================================= BigInt(text)

namespace Keeper.Json

theorem isSpace_digit {c : Char} (hc : c.isDigit = true) : isSpace c = false := by
  have hrange : 48 ≤ c.toNat ∧ c.toNat ≤ 57 := by
    rw [Char.isDigit, Bool.and_eq_true, decide_eq_true_eq, decide_eq_true_eq] at hc
    exact ⟨hc.1, hc.2⟩
  refine Bool.eq_false_of_not_eq_true ?_
  intro hblank
  simp only [isSpace, decide_eq_true_eq, List.mem_cons, List.not_mem_nil, or_false] at hblank
  omega

theorem isSpace_digitChar : ∀ d < 16, isSpace (Nat.digitChar d) = false := by decide

theorem isSpace_lastDigits (k n : ℕ) : ∀ c ∈ lastDigits 16 k n, isSpace c = false := by
  induction k generalizing n with
  | zero => exact fun c hc => absurd hc List.not_mem_nil
  | succ k ih =>
      intro c hc
      rcases List.mem_append.1 hc with hfirst | hlast
      · exact ih _ c hfirst
      · rw [List.mem_singleton.1 hlast]
        exact isSpace_digitChar _ (Nat.mod_lt n (by decide))

/-- `BigInt` of `0x` and hexadecimal digits. -/
theorem textToBigInt_lastDigits {k : ℕ} (hk : 0 < k) (n : ℕ) :
    textToBigInt ("0x" ++ String.ofList (lastDigits 16 k n)) = some ((n % 16 ^ k : ℕ) : ℤ) := by
  have hlist : ("0x" ++ String.ofList (lastDigits 16 k n)).toList
      = '0' :: 'x' :: lastDigits 16 k n := by
    rw [String.toList_append, String.toList_ofList, String.toList_ofList]
    rfl
  have hblank : ∀ c ∈ '0' :: 'x' :: lastDigits 16 k n, isSpace c = false := by
    intro c hc
    rcases List.mem_cons.1 hc with rfl | hc
    · decide
    · rcases List.mem_cons.1 hc with rfl | hc
      · decide
      · exact isSpace_lastDigits k n c hc
  have hread :=
    readDigits_lastDigits (by decide) (digitValue_digitChar 16 (by decide)) k n
  unfold textToBigInt
  rw [hlist, trim_eq hblank]
  show literalValue 16 (lastDigits 16 k n) = _
  unfold literalValue
  split
  · rename_i hnil
    have hlength := congrArg List.length hnil
    rw [length_lastDigits, List.length_nil] at hlength
    omega
  · rw [hread]
    rfl

/-- Decimal digits need no trimming, and are no other literal. -/
theorem textToBigInt_digits (hne : text.toList ≠ [])
    (hdigits : ∀ c ∈ text.toList, c.isDigit = true) :
    textToBigInt text = literalValue 10 text.toList := by
  unfold textToBigInt
  rw [trim_eq fun c hc => isSpace_digit (hdigits c hc)]
  generalize text.toList = cs at hne hdigits
  have hsecond : ∀ {c d rest}, cs = c :: d :: rest → d.isDigit = true := by
    rintro c d rest rfl
    exact hdigits d (by simp)
  have hfirst : ∀ {c rest}, cs = c :: rest → c.isDigit = true := by
    rintro c rest rfl
    exact hdigits c (by simp)
  split
  · exact absurd rfl hne
  · exact absurd (hsecond rfl) (by decide)
  · exact absurd (hsecond rfl) (by decide)
  · exact absurd (hsecond rfl) (by decide)
  · exact absurd (hsecond rfl) (by decide)
  · exact absurd (hsecond rfl) (by decide)
  · exact absurd (hsecond rfl) (by decide)
  · exact absurd (hfirst rfl) (by decide)
  · exact absurd (hfirst rfl) (by decide)
  · rfl

/-- `BigInt(x.toString())` is `x`. -/
theorem textToBigInt_toString (n : ℕ) : textToBigInt (toString n) = some (n : ℤ) := by
  have hdigits : ∀ c ∈ Nat.toDigits 10 n, c.isDigit = true := fun c hc =>
    Nat.isDigit_of_mem_toDigits (by decide) (by decide) hc
  have hne : Nat.toDigits 10 n ≠ [] := Nat.toDigits_ne_nil
  have hread := readDigits_toDigits (by decide) (digitValue_digitChar 10 (by decide)) n
  rw [← toList_toString] at hdigits hne hread
  rw [textToBigInt_digits hne hdigits]
  unfold literalValue
  split
  · contradiction
  · rw [hread]
    rfl

end Keeper.Json

-- =================================================================== SetString

namespace Backend

end Backend

end Zstrategy
