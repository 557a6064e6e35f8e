/-
JSON values as the keeper's handlers read them: the conversions JavaScript
applies to a parsed body (`!x`, `typeof`, `===`, `BigInt(x)` and the
comparison of a number with an integer).

A number of a parsed body is a double. It counts here by its value, which
is a rational or an infinity: a literal that no double holds has been
rounded by the parser before any handler sees it. `BigInt` of a text
trims it as `trim` does, of every blank and line end that JavaScript
knows, and reads a decimal with a sign or a literal with a radix prefix.
-/
import Mathlib.Data.Int.Notation
import Mathlib.Data.Rat.Init
import Mathlib.Order.Basic
import Mathlib.Algebra.Order.Ring.Rat
import Zstrategy.Lib.Numerals

namespace Zstrategy.Keeper

open Lib

-- ====================================================================== blanks

/-- What `String.prototype.trim` drops: white space and line ends. -/
def isSpace (c : Char) : Bool :=
  c.toNat ∈ [0x09, 0x0a, 0x0b, 0x0c, 0x0d, 0x20, 0xa0, 0x1680, 0x2000, 0x2001, 0x2002, 0x2003,
    0x2004, 0x2005, 0x2006, 0x2007, 0x2008, 0x2009, 0x200a, 0x2028, 0x2029, 0x202f, 0x205f,
    0x3000, 0xfeff]

def trim (text : List Char) : List Char :=
  ((text.dropWhile isSpace).reverse.dropWhile isSpace).reverse

theorem dropWhile_isSpace {cs : List Char} (hcs : ∀ c ∈ cs, isSpace c = false) :
    cs.dropWhile isSpace = cs := by
  cases cs with
  | nil => rfl
  | cons c cs =>
      refine List.dropWhile_cons_of_neg ?_
      rw [hcs c List.mem_cons_self]
      exact Bool.false_ne_true

/-- A text without blanks needs no trimming. -/
theorem trim_eq {cs : List Char} (hcs : ∀ c ∈ cs, isSpace c = false) : trim cs = cs := by
  have hback : ∀ c ∈ cs.reverse, isSpace c = false := fun c hc =>
    hcs c (List.mem_reverse.1 hc)
  rw [trim, dropWhile_isSpace hcs, dropWhile_isSpace hback, List.reverse_reverse]

-- ====================================================================== values

/-- A JSON number; a literal too large for a double reads as an infinity. -/
inductive JsNumber where
  | finite (q : ℚ)
  | posInf
  | negInf
  deriving DecidableEq

/-- A field of a parsed body. An array or an object counts only through
the text it converts to. -/
inductive Json where
  | undefined
  | null
  | bool (b : Bool)
  | number (x : JsNumber)
  | string (s : String)
  | compound (text : String)
  deriving DecidableEq

namespace JsNumber

/-- `n >= x`, for an integer `n`. -/
def leInt (x : JsNumber) (n : ℤ) : Prop :=
  match x with
  | .finite q => q ≤ n
  | .posInf => False
  | .negInf => True

/-- `n <= x`. -/
def geInt (x : JsNumber) (n : ℤ) : Prop :=
  match x with
  | .finite q => n ≤ q
  | .posInf => True
  | .negInf => False

instance instDecidableLeInt (x : JsNumber) (n : ℤ) : Decidable (x.leInt n) := by
  cases x <;> unfold leInt <;> infer_instance

instance instDecidableGeInt (x : JsNumber) (n : ℤ) : Decidable (x.geInt n) := by
  cases x <;> unfold geInt <;> infer_instance

end JsNumber

namespace Json

/-- `!x`. -/
def falsy : Json → Bool
  | .undefined => true
  | .null => true
  | .bool b => !b
  | .number x => x = .finite 0
  | .string s => s = ""
  | .compound _ => false

/-- `typeof x === "number"`. -/
def asNumber : Json → Option JsNumber
  | .number x => some x
  | _ => none

-- ================================================================= BigInt(x)

/-- At least one digit. -/
def literalValue (base : ℕ) : List Char → Option ℤ
  | [] => none
  | cs => (readDigits (digitValue base) base 0 cs).map Int.ofNat

/-- `BigInt(text)`: blanks around it are dropped, the empty text is zero,
a sign goes with decimal digits only. -/
def textToBigInt (text : String) : Option ℤ :=
  match trim text.toList with
  | [] => some 0
  | '0' :: 'x' :: cs => literalValue 16 cs
  | '0' :: 'X' :: cs => literalValue 16 cs
  | '0' :: 'o' :: cs => literalValue 8 cs
  | '0' :: 'O' :: cs => literalValue 8 cs
  | '0' :: 'b' :: cs => literalValue 2 cs
  | '0' :: 'B' :: cs => literalValue 2 cs
  | '-' :: cs => (literalValue 10 cs).map Neg.neg
  | '+' :: cs => literalValue 10 cs
  | cs => literalValue 10 cs

/-- `BigInt(x)`; `none` if it throws. -/
def toBigInt : Json → Option ℤ
  | .undefined => none
  | .null => none
  | .bool b => some b.toNat
  | .number (.finite q) => if q.den = 1 then some q.num else none
  | .number _ => none
  | .string s => textToBigInt s
  | .compound text => textToBigInt text

/-- `BigInt(x ?? "0")`. -/
def toBigIntOrZero : Json → Option ℤ
  | .undefined => some 0
  | .null => some 0
  | x => x.toBigInt

example : toBigIntOrZero (.string "100000000") = some 100000000 := by decide

end Json

end Zstrategy.Keeper
