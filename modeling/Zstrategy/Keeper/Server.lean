/-
`keeper/src/api/server.ts`, `POST /api/execute`: the checks a request
passes before `reconstructUserSecret` is called. Everything the checks
read comes from the request and from the moment (the node's answers and
the clock); nothing is compared with what the commitment hash hides.

A check that fails ends the request with its own status and text. So the
results about a request speak of one case only: that `reconstructUserSecret`
is called.
-/
import Zstrategy.Keeper.Json
import Zstrategy.Keeper.Oracle

namespace Zstrategy.Keeper

open Lib Contracts

/-- What the handler uses of the ethers library. -/
structure Ethers where
  /-- `isHexString(x, 32)`, and the number it spells. -/
  bytes32 : Json → Option Bytes32
  /-- `isAddress(x)`, and the address it spells. -/
  address : Json → Option Address
  /-- How an address is printed. -/
  shown : Address → String

/-- `req.body` of `POST /api/execute`. -/
structure ExecuteBody where
  commitmentHash : Json
  kind : Json
  tokenIn : Json
  tokenOut : Json
  size : Json
  minOut : Json
  expiry : Json
  limitPrice : Json
  direction : Json
  nonce : Json
  nullifier : Json
  scheduledLo : Json
  scheduledHi : Json

/-- How the checks end. -/
inductive Reverified where
  /-- An HTTP status and the error of the response. -/
  | refused (status : ℕ) (error : String)
  /-- `reconstructUserSecret(commitmentHash)` is called. -/
  | reconstruct (commitmentHash : Bytes32) (executionTimestamp : Option ℕ)
  deriving DecidableEq

variable (lib : Ethers)

/-- The hash and the tokens of a request that passes the basic validation. -/
def ExecuteBody.validate (body : ExecuteBody) :
    Except (ℕ × String) (Bytes32 × Address × Address) :=
  if body.commitmentHash.falsy then .error (400, "Invalid commitmentHash") else
  match lib.bytes32 body.commitmentHash with
  | none => .error (400, "Invalid commitmentHash")
  | some h =>
      if body.tokenIn.falsy then .error (400, "Invalid tokenIn") else
      match lib.address body.tokenIn with
      | none => .error (400, "Invalid tokenIn")
      | some tokenIn =>
          if body.tokenOut.falsy then .error (400, "Invalid tokenOut") else
          match lib.address body.tokenOut with
          | none => .error (400, "Invalid tokenOut")
          | some tokenOut =>
              if body.size.falsy || body.minOut.falsy || body.nonce.falsy
                  || body.nullifier.falsy then
                .error (400, "Missing required fields")
              else .ok (h, tokenIn, tokenOut)

/-- `direction === 1 ? "SELL" : "BUY"`. -/
def ExecuteBody.sells (body : ExecuteBody) : Bool :=
  body.direction = .number (.finite 1)

/-- `dir === "SELL" ? pairPrice >= lp : pairPrice <= lp`. -/
def conditionMet (sells : Bool) (pairPrice lp : ℤ) : Bool :=
  if sells then lp ≤ pairPrice else pairPrice ≤ lp

/-- The re-verification of a DCA request at the time `now`. -/
def reverifyWindow (now : ℕ) (body : ExecuteBody) (h : Bytes32) : Reverified :=
  match body.scheduledLo.asNumber, body.scheduledHi.asNumber with
  | some lo, some hi =>
      if lo.leInt now ∧ hi.geInt now then .reconstruct h (some now)
      else .refused 422 "Fill condition not met (re-verify)"
  | _, _ => .refused 400 "scheduledLo and scheduledHi required for DCA"

/-- The re-verification of any other request; every exception is answered
with 503. -/
def reverifyPrice (w : World) (body : ExecuteBody) (h : Bytes32)
    (tokenIn tokenOut : Address) : Reverified :=
  match fetchPairPrice lib.shown w tokenIn tokenOut, body.limitPrice.toBigIntOrZero with
  | .ok pairPrice, some lp =>
      if conditionMet body.sells pairPrice lp then .reconstruct h none
      else .refused 422 "Fill condition not met (re-verify)"
  | _, _ => .refused 503 "Oracle re-verification unavailable; refusing execution"

/-- `POST /api/execute` up to the reconstruction. -/
def execute (w : World) (now : ℕ) (body : ExecuteBody) : Reverified :=
  match body.validate lib with
  | .error (status, error) => .refused status error
  | .ok (h, tokenIn, tokenOut) =>
      if body.kind = .string "DCA" then reverifyWindow now body h
      else reverifyPrice lib w body h tokenIn tokenOut

end Zstrategy.Keeper
