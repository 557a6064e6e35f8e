/-
The pair price as `backend/internal/service/monitor.go` derives it, for
the trigger decision. The arithmetic is `big.Int`, except for the
exponents: `18 - dIn` is taken in `uint8` before it is widened.
-/
import Zstrategy.Contracts.CommitmentRegistry

namespace Zstrategy.Backend

open Lib Contracts

variable (shown : Address → String) (w : World)

/-- `new(big.Int).Exp(10, big.NewInt(int64(18-d)), nil)`. -/
def scale (d : UInt8) : ℤ :=
  10 ^ (18 - d).toNat

/-- `callRegistryPriceFeed`: the mapping's getter cannot revert. -/
def callRegistryPriceFeed (token : Address) : Address :=
  w.registry.priceFeeds token

/-- `callChainlinkFeed`. -/
def callChainlinkFeed (feedAddr : Address) : Except String (ℤ × UInt8) :=
  match w.ext.feed feedAddr with
  | none => .error "call latestRoundData: execution reverted"
  | some f => do
      expect (0 < f.answer) ("non-positive oracle price from feed " ++ shown feedAddr)
      return (f.answer, f.decimals)

/-- `fmt.Errorf("context: %w", err)`. -/
def wrapError {α : Type} (context : String) : Except String α → Except String α
  | .ok a => .ok a
  | .error e => .error (context ++ ": " ++ e)

theorem wrapError_eq_ok {α : Type} {context : String} {e : Except String α} {a : α} :
    wrapError context e = .ok a ↔ e = .ok a := by
  cases e with
  | ok b => exact Iff.rfl
  | error m => simp [wrapError]

/-- `fetchPairPrice`. Both scaled answers are positive here, so the
Euclidean `Div` is the floor. -/
def fetchPairPrice (tokenIn tokenOut : Address) : Except String ℤ := do
  let feedInAddr := callRegistryPriceFeed w tokenIn
  expect (feedInAddr ≠ 0) ("no USD feed configured for tokenIn " ++ shown tokenIn)
  let feedOutAddr := callRegistryPriceFeed w tokenOut
  expect (feedOutAddr ≠ 0) ("no USD feed configured for tokenOut " ++ shown tokenOut)
  let (answerIn, dIn) ← wrapError "tokenIn feed" (callChainlinkFeed shown w feedInAddr)
  let (answerOut, dOut) ← wrapError "tokenOut feed" (callChainlinkFeed shown w feedOutAddr)
  let normIn := answerIn * scale dIn
  let normOut := answerOut * scale dOut
  let priceU := normIn * 10 ^ dOut.toNat / normOut
  expect (0 < priceU) "derived pair price is zero"
  return priceU

end Zstrategy.Backend
