/-
`internal/indexer/chain.go`, one log at a time: how Solidity encodes the
registry's events as topics and data, and what `handleLog` makes of them.

The first topic is the hash of the event's signature, computed by the
compiler on one side and from the indexer's own ABI on the other;
`keccak` is that hash. `handleLog` reads the second topic before it
decides which event it has.

The arguments of an event are words. What `handleLog` passes on is the hash
as a text, and of the other words those that its handler takes.
-/
import Zstrategy.Backend.IndexerService
import Zstrategy.Contracts.State
import Zstrategy.Lib.Numerals

namespace Zstrategy.Backend

open Lib Go Contracts

-- ==================================================================== events

/-- A parameter of an event. -/
structure AbiInput where
  type : String
  indexed : Bool

structure AbiEvent where
  name : String
  inputs : List AbiInput

/-- The text that is hashed into the first topic. -/
def AbiEvent.signature (e : AbiEvent) : String :=
  e.name ++ "(" ++ ",".intercalate (e.inputs.map AbiInput.type) ++ ")"

/-- `T indexed x`. -/
def indexed (type : String) : AbiInput := ⟨type, true⟩

/-- `T x`. -/
def plain (type : String) : AbiInput := ⟨type, false⟩

/-- The event as the contract declares it, and its arguments as words. An
enum is a `uint8` in a signature. -/
def declaration : RegistryEvent → AbiEvent × List Bytes32
  | .CommitmentRegistered h owner tokenIn tokenOut size expiry kind =>
      (⟨"CommitmentRegistered",
        [indexed "bytes32", indexed "address", plain "address", plain "address",
          plain "uint256", plain "uint64", plain "uint8"]⟩,
        [h, owner.toBytes32, tokenIn.toBytes32, tokenOut.toBytes32, size,
          .ofUInt64 expiry, .ofUInt64 kind.toUInt8.toUInt64])
  | .VerifierSet kind verifier =>
      (⟨"VerifierSet", [indexed "uint8", indexed "address"]⟩,
        [.ofUInt64 kind.toUInt64, verifier.toBytes32])
  | .CommitmentExecuted h owner executor nullifier fillRef amountOut kind =>
      (⟨"CommitmentExecuted",
        [indexed "bytes32", indexed "address", indexed "address", plain "bytes32",
          plain "uint64", plain "uint256", plain "uint8"]⟩,
        [h, owner.toBytes32, executor.toBytes32, nullifier, .ofUInt64 fillRef, amountOut,
          .ofUInt64 kind.toUInt8.toUInt64])
  | .CommitmentCancelled h owner =>
      (⟨"CommitmentCancelled", [indexed "bytes32", indexed "address"]⟩,
        [h, owner.toBytes32])
  | .CommitmentExpired h owner =>
      (⟨"CommitmentExpired", [indexed "bytes32", indexed "address"]⟩, [h, owner.toBytes32])
  | .DEXAdapterChanged oldAdapter newAdapter =>
      (⟨"DEXAdapterChanged", [indexed "address", indexed "address"]⟩,
        [oldAdapter.toBytes32, newAdapter.toBytes32])
  | .CollateralVaultChanged oldVault newVault =>
      (⟨"CollateralVaultChanged", [indexed "address", indexed "address"]⟩,
        [oldVault.toBytes32, newVault.toBytes32])
  | .GasVaultChanged oldVault newVault =>
      (⟨"GasVaultChanged", [indexed "address", indexed "address"]⟩,
        [oldVault.toBytes32, newVault.toBytes32])
  | .PriceFeedSet token feed =>
      (⟨"PriceFeedSet", [indexed "address", indexed "address"]⟩,
        [token.toBytes32, feed.toBytes32])
  | .OracleStalenessSet oldValue newValue =>
      (⟨"OracleStalenessSet", [plain "uint256", plain "uint256"]⟩, [oldValue, newValue])
  | .Paused guardian => (⟨"Paused", [indexed "address"]⟩, [guardian.toBytes32])
  | .Unpaused guardian => (⟨"Unpaused", [indexed "address"]⟩, [guardian.toBytes32])

/-- A log as the node delivers it. The data is a list of words: every
parameter of these events takes one. -/
structure Log where
  topics : List Bytes32
  data : List Bytes32
  txHash : String
  blockNumber : UInt64

/-- The arguments at the indexed (or the plain) parameters. -/
def argumentsAt (isIndexed : Bool) (d : AbiEvent × List Bytes32) : List Bytes32 :=
  ((d.1.inputs.zip d.2).filter fun x => x.1.indexed = isIndexed).map Prod.snd

/-- The log of an event. -/
def encodeLog (keccak : String → Bytes32) (e : RegistryEvent) (txHash : String)
    (blockNumber : UInt64) : Log where
  topics := keccak (declaration e).1.signature
    :: argumentsAt true (declaration e)
  data := argumentsAt false (declaration e)
  txHash
  blockNumber

-- =============================================================== the indexer

/-- `registryABI`. -/
def abiCommitmentRegistered : AbiEvent :=
  ⟨"CommitmentRegistered",
    [indexed "bytes32", indexed "address", plain "address", plain "address",
      plain "uint256", plain "uint64", plain "uint8"]⟩

def abiCommitmentExecuted : AbiEvent :=
  ⟨"CommitmentExecuted",
    [indexed "bytes32", indexed "address", indexed "address", plain "bytes32",
      plain "uint64", plain "uint256", plain "uint8"]⟩

def abiCommitmentCancelled : AbiEvent :=
  ⟨"CommitmentCancelled", [indexed "bytes32", indexed "address"]⟩

def abiCommitmentExpired : AbiEvent :=
  ⟨"CommitmentExpired", [indexed "bytes32", indexed "address"]⟩

structure ChainIndexer where
  chainID : ℤ
  svc : IndexerService

/-- What the node answers while one log is handled; `none` is an error. -/
structure NodeAnswers where
  /-- `BlockByHash`. -/
  blockTime : Option ℤ
  /-- `TransactionReceipt`. -/
  gasUsed : Option UInt64

/-- `"0x" + fmt.Sprintf("%x", topic)`. -/
def hexHash (topic : Bytes32) : String :=
  "0x" ++ String.ofList (lastDigits 16 64 topic.val)

/-- `Inputs.UnpackIntoMap(decoded, vLog.Data)` and `decoded["kind"]`: the
word of the `uint64` and of the `uint8` must fit. -/
def unpackKind (data : List Bytes32) : Option UInt8 :=
  match data with
  | _ :: _ :: _ :: expiry :: kind :: _ =>
      if expiry.val < 2 ^ 64 ∧ kind.val < 2 ^ 8 then some (UInt8.ofNat kind.val) else none
  | _ => none

variable {σ : Type}

/-- `xs[i]`. -/
def index (xs : List Bytes32) (i : ℕ) : Go σ Bytes32 :=
  match xs[i]? with
  | some x => pure x
  | none => do
      unlessPanic False "runtime error: index out of range"
      pure 0

variable (keccak : String → Bytes32) (ci : ChainIndexer) (node : NodeAnswers) (now : ℤ)

/-- The call `handleLog` makes for a log, if any: everything up to the
service. -/
def ChainIndexer.handlerCall (vLog : Log) : Go σ (Option HandlerCall) :=
  match vLog.topics with
  | [] => pure none
  | topic0 :: _ => do
      let blockTime := node.blockTime.getD now
      let topic1 ← index vLog.topics 1
      let commitmentHash := hexHash topic1
      if topic0 = keccak abiCommitmentRegistered.signature then
        let kind := if unpackKind vLog.data = some 1 then "DCA" else "ORDER_FILL"
        return some (.registered commitmentHash kind ci.chainID blockTime)
      else if topic0 = keccak abiCommitmentExecuted.signature then
        return some (.executed commitmentHash vLog.txHash ci.chainID vLog.blockNumber
          (node.gasUsed.getD 0) blockTime)
      else if topic0 = keccak abiCommitmentCancelled.signature then
        return some (.cancelled commitmentHash vLog.txHash vLog.blockNumber)
      else if topic0 = keccak abiCommitmentExpired.signature then
        return some (.expired commitmentHash vLog.blockNumber)
      else return none

/-- `handleLog`; the service's error is only logged. -/
def ChainIndexer.handleLog (env : Env) (vLog : Log) : Go Service Unit := do
  let call ← ci.handlerCall keccak node env.now vLog
  match call with
  | none => pure ()
  | some c => do
      let _ ← (c.run ci.svc env).attempt

end Zstrategy.Backend
