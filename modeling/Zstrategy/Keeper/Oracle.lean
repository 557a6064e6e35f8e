/-
`keeper/src/chain/oracle.ts`: the pair price as the keeper derives it, in
unbounded bigints. The node answers from the same world the registry
reads, so what differs from `_readOraclePrice` is only the arithmetic and
the guards.
-/
import Zstrategy.Contracts.CommitmentRegistry

namespace Zstrategy.Keeper

open Lib Contracts

-- ================================================================== bigints

/-- `b ** e` on bigints. -/
def bigintPow (b e : ℤ) : Except String ℤ :=
  if e < 0 then .error "RangeError: Exponent must be non-negative"
  else .ok (b ^ e.toNat)

/-- `a / b` on bigints: truncation towards zero. -/
def bigintDiv (a b : ℤ) : Except String ℤ :=
  if b = 0 then .error "RangeError: Division by zero" else .ok (a.tdiv b)

theorem bigintPow_eq_ok {b e x : ℤ} : bigintPow b e = .ok x ↔ 0 ≤ e ∧ x = b ^ e.toNat := by
  unfold bigintPow
  by_cases he : e < 0
  · simp [he]
  · simp [he, not_lt.1 he, eq_comm]

theorem bigintDiv_eq_ok {a b x : ℤ} : bigintDiv a b = .ok x ↔ b ≠ 0 ∧ x = a.tdiv b := by
  unfold bigintDiv
  by_cases hb : b = 0
  · simp [hb]
  · simp [hb, eq_comm]

-- ==================================================================== feeds

/-- What `fetchFeed` returns. -/
structure FeedData where
  answer : ℤ
  decimals : ℕ

variable (shown : Address → String) (w : World)

/-- `fetchFeed`; `shown` is how the library prints an address. -/
def fetchFeed (feedAddress : Address) : Except String FeedData :=
  match w.ext.feed feedAddress with
  | none => .error "call revert exception"
  | some f => do
      expect (0 < f.answer)
        ("Oracle: non-positive price from feed " ++ shown feedAddress)
      return ⟨f.answer, f.decimals.toNat⟩

/-- `fetchPairPrice`. The two feeds are read concurrently in the source;
which of two failures is reported first does not matter here. -/
def fetchPairPrice (tokenIn tokenOut : Address) : Except String ℤ := do
  let feedInAddr := w.registry.priceFeeds tokenIn
  let feedOutAddr := w.registry.priceFeeds tokenOut
  expect (feedInAddr ≠ 0)
    ("Oracle: no USD feed configured for tokenIn " ++ shown tokenIn)
  expect (feedOutAddr ≠ 0)
    ("Oracle: no USD feed configured for tokenOut " ++ shown tokenOut)
  let feedIn ← fetchFeed shown w feedInAddr
  let feedOut ← fetchFeed shown w feedOutAddr
  let scaleIn ← bigintPow 10 (18 - feedIn.decimals)
  let normIn := feedIn.answer * scaleIn
  let scaleOut ← bigintPow 10 (18 - feedOut.decimals)
  let normOut := feedOut.answer * scaleOut
  let dOut ← bigintPow 10 feedOut.decimals
  let priceU ← bigintDiv (normIn * dOut) normOut
  expect (0 < priceU) "Oracle: derived pair price is zero"
  expect (priceU ≤ 2 ^ 64 - 1) "Oracle: pair price overflows uint64"
  return priceU

end Zstrategy.Keeper
