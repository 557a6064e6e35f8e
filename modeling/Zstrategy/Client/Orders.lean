/-
`frontend/src/app/(dashboard)/orders/page.tsx`: what the orders page
derives from its form, and what a submission registers.

The three text fields are read through JavaScript floats; what the page
makes of them is taken as given: the target price times 10^8, the amount
and the minimum output in token units.
-/
import Zstrategy.Client.Commitment

namespace Zstrategy.Client

open Contracts

inductive Side where
  | BUY | SELL
  deriving DecidableEq

inductive StrategyKind where
  | LIMIT | MARKET
  deriving DecidableEq

structure TradingPair where
  baseToken : Address
  quoteToken : Address

/-- The form, once its fields are parsed. -/
structure Form where
  pair : TradingPair
  kind : StrategyKind
  side : Side
  /-- The target price times `10 ^ ORACLE_DECIMALS`. -/
  targetPrice : ℕ
  amountBig : U256
  minOutBig : U256
  expiry : UInt64

namespace Form

def MARKET_PRICE_BUY : ℕ := 2 ^ 64 - 1

def MARKET_PRICE_SELL : ℕ := 0

variable (f : Form)

def tokenIn : Address :=
  if f.side = .SELL then f.pair.baseToken else f.pair.quoteToken

def tokenOut : Address :=
  if f.side = .SELL then f.pair.quoteToken else f.pair.baseToken

def direction : StrategyDirection :=
  if f.side = .SELL then .SELL else .BUY

/-- The price the order is committed to. -/
def priceBig : ℕ :=
  match f.kind with
  | .MARKET => if f.direction = .BUY then MARKET_PRICE_BUY else MARKET_PRICE_SELL
  | .LIMIT => f.targetPrice

end Form

end Zstrategy.Client
