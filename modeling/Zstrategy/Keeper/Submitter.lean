/-
`keeper/src/execution/submitter.ts`: `submitExecution`, one run of it, on
a chain that goes on by itself. The proof generator, the node and the
mempool answer as they like, except that a call that reverts does so for a
reason the registry can give at some point between transactions so far: a
node may lag, but it does not make up the chain. What becomes of the
transaction itself is among the moves of the chain.

The metrics, the logs and the amounts of gas are left out.

# Two kinds of step

A label says which of the two moves. On a move of the chain the attempt
waits, and a point between transactions is added to `past`, the list of all
that the node could still be answering from. On a step of the attempt the
answer is in the label, and it is accepted only if it is one that some point
of `past` allows.
-/
import Zstrategy.Contracts.Chain
import Zstrategy.Lib.Machine
import Zstrategy.Lib.Text

namespace Zstrategy.Keeper

open Lib Contracts

-- ============================================================= the two lists

def includes (message text : String) : Bool := occurs text.toList message.toList

def isUserFixableRevert (message : String) : Bool :=
  includes message "GasVault: insufficient gas balance"

def definitive : List String :=
  ["Registry: not pending", "Registry: nullifier spent", "Registry: expired",
    "Registry: invalid proof", "Registry: paused", "Registry: stale oracle",
    "Registry: no price feed"]

def isDefinitiveRevert (message : String) : Bool :=
  definitive.any (includes message)

-- ================================================================ one attempt

/-- What `submitExecution` reads of its request besides the witnesses it
hands to the proof generator. -/
structure ExecuteRequest where
  commitmentHash : Bytes32
  /-- The hash as the request writes it. -/
  shown : String
  kind : CommitmentKind
  nullifier : Bytes32
  scheduledHi : ℕ
  executionTimestamp : Option UInt64

structure SubmitConfig where
  maxRetries : ℕ
  backendUrl : String

/-- How ethers words the error of a call that reverts. -/
structure CallErrors where
  estimateGas : String → String
  call : String → String

/-- The arguments of `executeCommitment`. -/
structure Attempt where
  msg : Msg
  proof : List UInt8
  fillRef : UInt64

/-- A number or a hash as the node prints it: digits and small letters. -/
abbrev Numeral := {text : String // (text.toList.all fun c => c.isDigit || c.isLower) = true}

/-- An error that an attempt ends in. -/
inductive Failure where
  /-- `estimateGas` reverts on the chain as it was at `w`. -/
  | estimate (a : Attempt) (w : World) (reason : String)
  /-- The transaction reverted, and so does its replay at `w`. -/
  | replay (txHash : Numeral) (a : Attempt) (w : World) (reason : String)
      (data : Option Numeral)
  | other (message : String)

/-- The error of a transaction whose replay failed with `m`. -/
def replayMessage (txHash : Numeral) (m : String) (data : Option Numeral) : String :=
  "Transaction reverted: " ++ txHash.val ++ " — replay revert: " ++ m
    ++ match data with
      | some d => " (data=" ++ d.val ++ ")"
      | none => ""

/-- The error of a transaction whose replay went through. -/
def notReproduced (txHash blockNumber : Numeral) : String :=
  "Transaction reverted: " ++ txHash.val ++ " (replay at block " ++ blockNumber.val
    ++ " did NOT reproduce — likely transient state, e.g. pool/oracle moved by the time "
    ++ "we re-queried)"

def Failure.message (errors : CallErrors) : Failure → String
  | .estimate _ _ reason => errors.estimateGas reason
  | .replay txHash _ _ reason data => replayMessage txHash (errors.call reason) data
  | .other message => message

/-- The point of the chain where the registry refused a call, and why. -/
def Failure.refusal : Failure → Option (Attempt × World × String)
  | .estimate a w reason | .replay _ a w reason _ => some (a, w, reason)
  | .other _ => none

-- ================================================================== the state

/-- Why the backend is told that the order is done. -/
inductive GivenUp where
  | definitive
  | exhausted
  deriving DecidableEq

/-- Where `submitExecution` stands. -/
inductive Phase where
  /-- The head of the loop. -/
  | head
  /-- Before the proof is generated, before `getFeeData`, before
  `estimateGas`, before the transaction is sent, before `tx.wait`. -/
  | prove
  | feeData (proof : List UInt8) (fillRef : UInt64)
  | estimate (a : Attempt)
  | send (a : Attempt)
  | wait (a : Attempt) (txHash : Numeral)
  /-- Before the replay of a reverted transaction. -/
  | replay (a : Attempt) (txHash : Numeral)
  | backoff
  /-- Before `notifyBackendDone(hash, reason)`. -/
  | notifying (why : GivenUp) (reason : String)
  | finished (result : Except String String)

/-- `POST …/done`. -/
structure DonePost where
  url : String
  reason : String
  deriving DecidableEq

structure Submission where
  chain : ChainConfig
  /-- The chain at the points between transactions so far. -/
  past : List World
  attempt : ℕ
  lastError : Failure
  phase : Phase
  posts : List DonePost

/-- The answer to a simulated call. -/
inductive Answer where
  | ok
  /-- It reverts on the chain as it was at the `i`-th point. -/
  | reverted (i : ℕ) (reason : String)
  | failed (message : String)

inductive SubmitStep where
  | chain (move : ChainMove)
  | go
  /-- `now` is `Math.floor(Date.now() / 1000)`. -/
  | prove (now : UInt64) (outcome : Except String (List UInt8))
  | feeData (outcome : Except String Msg)
  | estimate (answer : Answer)
  | send (outcome : Except String Numeral)
  /-- `true` is a receipt of status 1. -/
  | wait (outcome : Except String Bool)
  | replay (blockNumber : Numeral) (data : Option Numeral) (answer : Answer)

-- ================================================================== the steps

variable (net : Net) (config : SubmitConfig) (errors : CallErrors) (req : ExecuteRequest)

/-- The call can fail with this reason. Where the registry calls other code
(a feed, the verifier, a vault, a token, the adapter), any reason may be
that code's. -/
def failsWith (reason : String) : Outcome World Request Reply Unit → Bool
  | .revert e => e = reason || e = "feed call reverted" || e = "Registry: invalid proof"
  | .done _ _ => false
  | .call _ _ _ => true

/-- `registryWriter.executeCommitment`. -/
def Attempt.code (a : Attempt) : Contract Unit :=
  CommitmentRegistry.executeCommitment net a.msg req.commitmentHash req.nullifier a.proof
    a.fillRef

/-- `fillRef` of the attempt. -/
def ExecuteRequest.fillRef (now : UInt64) : UInt64 :=
  match req.kind with
  | .DCA => req.executionTimestamp.getD now
  | .ORDER_FILL => 0

/-- `` `${config.backendUrl.replace(/\/+$/, "")}/api/v1/strategies/${hash}/done` `` -/
def doneUrl : String :=
  String.ofList (config.backendUrl.toList.reverse.dropWhile (· = '/')).reverse
    ++ "/api/v1/strategies/" ++ req.shown ++ "/done"

namespace Submission

variable (s : Submission)

/-- The `catch` of an attempt. -/
def caught (f : Failure) : Submission :=
  let message := f.message errors
  { s with
    lastError := f
    phase :=
      if isUserFixableRevert message then
        .finished (.error ("[Submitter] user-fixable revert for " ++ req.shown ++ ": "
          ++ message))
      else if isDefinitiveRevert message then .notifying .definitive message
      else .backoff }

/-- What `submitExecution` throws after it gave up. -/
def thrown (why : GivenUp) : String :=
  match why with
  | .definitive => "[Submitter] definitive revert for " ++ req.shown ++ ": "
      ++ s.lastError.message errors
  | .exhausted => "[Submitter] max retries exceeded for " ++ req.shown ++ ": "
      ++ s.lastError.message errors

/-- After the loop. -/
def exhausted : Submission :=
  let message := s.lastError.message errors
  { s with
    phase :=
      if isUserFixableRevert message then .finished (.error (s.thrown errors req .exhausted))
      else .notifying .exhausted ("max retries exceeded: " ++ message) }

/-- A simulated call: `next` if it goes through. -/
def simulate (a : Attempt) (answer : Answer) (next : Submission)
    (refused : World → String → Failure) (failed : String → Failure) : Option Submission :=
  match answer with
  | .ok => some next
  | .reverted i reason =>
      match s.past[i]? with
      | none => none
      | some w =>
          if failsWith reason (a.code net req w) then
            some (s.caught errors req (refused w reason))
          else none
  | .failed message => some (s.caught errors req (failed message))

/-- A move of the chain; a new point between transactions is noted. -/
def onChain (move : ChainMove) : Option Submission :=
  match (Contracts.chain net).step s.chain move with
  | none => none
  | some c =>
      some { s with
        chain := c
        past := if c.stack.isEmpty then s.past ++ [c.world] else s.past }

/-- The next step of `submitExecution`, which sees the chain only between
transactions. -/
def step : SubmitStep → Option Submission
  | .chain move => s.onChain net move
  | .go =>
      match s.phase with
      | .head =>
          if s.attempt < config.maxRetries then some { s with phase := .prove }
          else some (s.exhausted errors req)
      | .backoff => some { s with attempt := s.attempt + 1, phase := .head }
      | .notifying why reason =>
          some { s with
            posts :=
              if config.backendUrl = "" then s.posts
              else s.posts ++ [⟨doneUrl config req, reason⟩]
            phase := .finished (.error (s.thrown errors req why)) }
      | _ => none
  | .prove now outcome =>
      match s.phase, outcome with
      | .prove, .ok proof => some { s with phase := .feeData proof (req.fillRef now) }
      | .prove, .error message => some (s.caught errors req (.other message))
      | _, _ => none
  | .feeData outcome =>
      match s.phase, outcome with
      | .feeData proof fillRef, .ok msg =>
          some { s with phase := .estimate ⟨msg, proof, fillRef⟩ }
      | .feeData _ _, .error message => some (s.caught errors req (.other message))
      | _, _ => none
  | .estimate answer =>
      match s.phase with
      | .estimate a =>
          s.simulate net errors req a answer { s with phase := .send a } (.estimate a) .other
      | _ => none
  | .send outcome =>
      match s.phase, outcome with
      | .send a, .ok txHash => some { s with phase := .wait a txHash }
      | .send _, .error message => some (s.caught errors req (.other message))
      | _, _ => none
  | .wait outcome =>
      match s.phase, outcome with
      | .wait _ txHash, .ok true => some { s with phase := .finished (.ok txHash.val) }
      | .wait a txHash, .ok false => some { s with phase := .replay a txHash }
      | .wait _ _, .error message => some (s.caught errors req (.other message))
      | _, _ => none
  | .replay blockNumber data answer =>
      match s.phase with
      | .replay a txHash =>
          s.simulate net errors req a answer
            (s.caught errors req (.other (notReproduced txHash blockNumber)))
            (fun w reason => .replay txHash a w reason data)
            (fun m => .other (replayMessage txHash m data))
      | _ => none

/-- `submitExecution(req)` as it is called. -/
def initial (w : World) : Submission :=
  ⟨⟨w, []⟩, [w], 0, .other "unknown", .head, []⟩

end Submission

/-- `submitExecution` and the chain; the keeper acts between transactions. -/
def submitter : Machine Submission SubmitStep where
  step e s :=
    match e with
    | .chain move => s.onChain net move
    | e => if s.chain.stack.isEmpty then s.step net config errors req e else none

end Zstrategy.Keeper
