/-
Positional notation, printed and read back. `Nat.toDigits` prints a number
in some base, `lastDigits` prints a fixed number of its digits, and
`readDigits` adds up one digit after another. What is printed reads back
as the number, or as its remainder where the digits are too few, so that
numbers that fit are determined by their text.

The inductions are on the number, by its last digit; the accumulator of
the reader is general.
-/
import Zstrategy.Lib.Bytes
import Zstrategy.Lib.Hex

namespace Zstrategy.Lib

/-- One digit after another; `value` knows the digits. -/
def readDigits (value : Char → Option ℕ) (base : ℕ) : ℕ → List Char → Option ℕ
  | acc, [] => some acc
  | acc, c :: cs => do
      let v ← value c
      readDigits value base (acc * base + v) cs

/-- The value of a digit in a base up to 16, in either case. -/
def digitValue (base : ℕ) (c : Char) : Option ℕ := (Hex.value c).filter (· < base)

theorem digitValue_digitChar :
    ∀ base ≤ 16, ∀ d < base, digitValue base (Nat.digitChar d) = some d := by
  decide

variable {value : Char → Option ℕ} {base acc : ℕ} {cs : List Char} {d : Char}

theorem readDigits_append :
    readDigits value base acc (cs ++ [d])
      = (readDigits value base acc cs).bind fun a => (value d).map (a * base + ·) := by
  induction cs generalizing acc with
  | nil =>
      show (value d).bind _ = (value d).map _
      cases value d <;> rfl
  | cons c cs ih =>
      show (value c).bind _ = ((value c).bind _).bind _
      cases value c with
      | none => rfl
      | some v => exact ih

/-- What is printed reads back as the number, after what was read before. -/
theorem readDigits_toDigits (hbase : 1 < base)
    (hvalue : ∀ d < base, value (Nat.digitChar d) = some d) (n : ℕ) :
    readDigits value base 0 (Nat.toDigits base n) = some n := by
  induction n using Nat.strongRecOn with
  | ind n ih =>
      rw [Nat.toDigits_eq_if hbase]
      split
      · rename_i hn
        show (value n.digitChar).bind _ = some n
        rw [hvalue n hn]
        show some (0 * base + n) = some n
        rw [Nat.zero_mul, Nat.zero_add]
      · rename_i hn
        have hsmaller : n / base < n := Nat.div_lt_self (by omega) hbase
        have hdigit := hvalue (n % base) (Nat.mod_lt n (by omega))
        rw [readDigits_append, ih (n / base) hsmaller, hdigit]
        show some (n / base * base + n % base) = some n
        rw [Nat.mul_comm, Nat.div_add_mod]

/-- The last `k` digits. -/
def lastDigits (base : ℕ) : ℕ → ℕ → List Char
  | 0, _ => []
  | k + 1, n => lastDigits base k (n / base) ++ [Nat.digitChar (n % base)]

theorem length_lastDigits (base k n : ℕ) : (lastDigits base k n).length = k := by
  induction k generalizing n with
  | zero => rfl
  | succ k ih =>
      show (lastDigits base k (n / base) ++ [_]).length = k + 1
      rw [List.length_append, ih, List.length_singleton]

theorem lastDigits_zero (base k : ℕ) : lastDigits base k 0 = List.replicate k '0' := by
  induction k with
  | zero => rfl
  | succ k ih =>
      show lastDigits base k (0 / base) ++ [Nat.digitChar (0 % base)] = _
      rw [Nat.zero_div, Nat.zero_mod, ih, List.replicate_succ']
      rfl

/-- `padStart(k, "0")`. -/
theorem pad_toDigits (hbase : 1 < base) {k n : ℕ} (hk : 0 < k) (hn : n < base ^ k) :
    List.replicate (k - (Nat.toDigits base n).length) '0' ++ Nat.toDigits base n
      = lastDigits base k n := by
  induction k generalizing n with
  | zero => omega
  | succ k ih =>
      rw [Nat.toDigits_eq_if hbase]
      split
      · rename_i hsmall
        show List.replicate (k + 1 - 1) '0' ++ _
          = lastDigits base k (n / base) ++ [Nat.digitChar (n % base)]
        rw [Nat.div_eq_of_lt hsmall, Nat.mod_eq_of_lt hsmall, lastDigits_zero, Nat.add_sub_cancel]
      · rename_i hlarge
        have hpos : 0 < k := by
          refine Nat.pos_of_ne_zero ?_
          rintro rfl
          rw [Nat.zero_add, Nat.pow_one] at hn
          exact hlarge hn
        have hdiv : n / base < base ^ k := by
          rw [Nat.pow_succ] at hn
          exact Nat.div_lt_of_lt_mul (by rw [Nat.mul_comm]; exact hn)
        have hlength : k + 1 - (Nat.toDigits base (n / base) ++ [Nat.digitChar (n % base)]).length
            = k - (Nat.toDigits base (n / base)).length := by
          rw [List.length_append, List.length_singleton]
          omega
        rw [hlength, ← List.append_assoc, ih hpos hdiv]
        rfl

theorem readDigits_lastDigits (hbase : 0 < base)
    (hvalue : ∀ d < base, value (Nat.digitChar d) = some d) (k n : ℕ) :
    readDigits value base 0 (lastDigits base k n) = some (n % base ^ k) := by
  induction k generalizing n with
  | zero =>
      rw [Nat.pow_zero, Nat.mod_one]
      rfl
  | succ k ih =>
      have hdigit := hvalue (n % base) (Nat.mod_lt n hbase)
      show readDigits value base 0 (lastDigits base k (n / base) ++ [_]) = _
      rw [readDigits_append, ih, hdigit]
      show some (n / base % base ^ k * base + n % base) = _
      rw [Nat.pow_succ', Nat.mod_mul, Nat.mul_comm, Nat.add_comm]

/-- A number that fits is determined by its digits. -/
theorem lastDigits_inj {k x y : ℕ} (hx : x < 16 ^ k) (hy : y < 16 ^ k)
    (h : lastDigits 16 k x = lastDigits 16 k y) : x = y := by
  have hread := readDigits_lastDigits (by decide) (digitValue_digitChar 16 (by decide)) k
  have hboth : some (x % 16 ^ k) = some (y % 16 ^ k) := by
    rw [← hread x, ← hread y, h]
  rw [Nat.mod_eq_of_lt hx, Nat.mod_eq_of_lt hy] at hboth
  exact Option.some.inj hboth

theorem Hex.digit_eq : ∀ n < 16, Hex.digit n = Nat.digitChar n := by decide

/-- The hexadecimal digits of the bytes of a number are its last digits. -/
theorem Hex.encode_toBE (w n : ℕ) : Hex.encode (toBE w n) = lastDigits 16 (2 * w) n := by
  induction w generalizing n with
  | zero => rfl
  | succ w ih =>
      have hbyte : (UInt8.ofNat n).toNat = n % 256 := UInt8.toNat_ofNat'
      have hhigh : Hex.digit (n % 256 / 16) = Nat.digitChar (n / 16 % 16) := by
        rw [Hex.digit_eq _ (by omega)]
        congr 1
        omega
      have hlow : Hex.digit (n % 256 % 16) = Nat.digitChar (n % 16) := by
        rw [Hex.digit_eq _ (by omega)]
        congr 1
        omega
      have hdiv : n / 256 = n / 16 / 16 := by
        rw [Nat.div_div_eq_div_mul]
      show Hex.encode (toBE w (n / 256) ++ [UInt8.ofNat n])
        = lastDigits 16 (2 * w) (n / 16 / 16) ++ [_] ++ [_]
      rw [Hex.encode, List.flatMap_append, ← Hex.encode, ih, hdiv, List.append_assoc]
      show _ ++ [Hex.digit ((UInt8.ofNat n).toNat / 16), Hex.digit ((UInt8.ofNat n).toNat % 16)] = _
      rw [hbyte, hhigh, hlow]
      rfl

end Zstrategy.Lib
