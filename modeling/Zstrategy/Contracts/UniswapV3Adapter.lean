/-
`UniswapV3Adapter.sol`: the production `IDEXAdapter`. The router is
outside code; so is every non-standard token it approves.
-/
import Zstrategy.Contracts.CollateralVault

namespace Zstrategy.Contracts

open Lib Code

variable (net : Net)

namespace UniswapV3Adapter

/-- The parameters `swap` hands to the router. The `amountOutMinimum:
minOut` line is commented out in the source and replaced by `0`. -/
def routerParams (a : AdapterParams) (tokenIn tokenOut : Address)
    (amountIn _minOut : U256) (recipient : Address) : ExactInputSingleParams :=
  { tokenIn, tokenOut, fee := a.feeTier, recipient, amountIn,
    amountOutMinimum := 0, sqrtPriceLimitX96 := 0 }

def swap (self : Address) (a : AdapterParams) (tokenIn tokenOut : Address)
    (amountIn minOut : U256) (recipient : Address) : Contract U256 := do
  let w ← read
  if w.routerApproved self tokenIn = false then
    forceApprove net tokenIn a.router
    modify fun w =>
      { w with routerApproved := update2 w.routerApproved self tokenIn true }
  let x ← ask (.exactInputSingle a.router
    (routerParams a tokenIn tokenOut amountIn minOut recipient))
  return x.returned

end UniswapV3Adapter

end Zstrategy.Contracts
