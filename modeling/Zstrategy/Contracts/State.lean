/-
What the contracts store, and the chain they live on.

Words are the contracts' own: `address` is 160 bits wide, `bytes32` and
`uint256` 256 bits, `uint64` and `uint8` are Lean's. The balances the two
vaults keep are naturals, and the code that adds to one checks the 2^256
bound where Solidity's checked arithmetic does.

A `World` is everything one transaction can read: the storage of our
contracts, the balances of the standard ERC-20s, native balances, and the
answers that outside contracts give to static calls (`Externals`).
`CollateralVault` is kept at every address because the registry can be
pointed from one instance to another; a `Net` says which addresses are
instances.
-/
import Zstrategy.Lib.Checked
import Zstrategy.Lib.Resumption
import Zstrategy.Lib.Store

namespace Zstrategy.Contracts

open Lib

-- =================================================================== words

abbrev Address := Fin (2 ^ 160)

abbrev Bytes32 := Fin (2 ^ 256)

abbrev U256 := Fin (2 ^ 256)

instance (priority := high) neZero_address : NeZero (2 ^ 160 : ℕ) := ⟨by decide⟩

instance (priority := high) neZero_word : NeZero (2 ^ 256 : ℕ) := ⟨by decide⟩

/-- `bytes32(uint256(uint160(a)))`. -/
def Address.toBytes32 (a : Address) : Bytes32 :=
  a.castLE (by decide)

/-- `bytes32(uint256(x))` of a `uint64`. -/
def Bytes32.ofUInt64 (x : UInt64) : Bytes32 :=
  ⟨x.toNat, Nat.lt_trans x.toNat_lt (by decide)⟩

@[simp] theorem Address.toBytes32_val (a : Address) : a.toBytes32.val = a.val := rfl

@[simp] theorem Bytes32.ofUInt64_val (x : UInt64) :
    (Bytes32.ofUInt64 x).val = x.toNat := rfl

/-- Solidity's panic code for arithmetic overflow and underflow. -/
def panicArithmetic : String := "Panic(0x11)"

def checkedAdd (a b : ℕ) : Except String ℕ :=
  if a + b < 2 ^ 256 then .ok (a + b) else .error panicArithmetic

def checkedSub (a b : ℕ) : Except String ℕ :=
  if b ≤ a then .ok (a - b) else .error panicArithmetic

def checkedMul (a b : ℕ) : Except String ℕ :=
  if a * b < 2 ^ 256 then .ok (a * b) else .error panicArithmetic

theorem checkedSub_eq_ok {a b c : ℕ} :
    checkedSub a b = .ok c ↔ c = a - b ∧ b ≤ a := by
  unfold checkedSub
  split <;> simp_all [eq_comm]

theorem checkedMul_eq_ok {a b c : ℕ} :
    checkedMul a b = .ok c ↔ c = a * b ∧ a * b < 2 ^ 256 := by
  unfold checkedMul
  split <;> simp_all [eq_comm]

-- ================================================================== storage

inductive CommitmentStatus where
  | NONE | PENDING | EXECUTED | CANCELLED | EXPIRED
  deriving DecidableEq, Repr

/-- Which verifier and public-input layout an execution uses. -/
inductive CommitmentKind where
  | ORDER_FILL | DCA
  deriving DecidableEq, Repr

def CommitmentKind.toUInt8 : CommitmentKind → UInt8
  | .ORDER_FILL => 0
  | .DCA => 1

structure CommitmentRecord where
  owner : Address
  expiry : UInt64
  status : CommitmentStatus
  kind : CommitmentKind
  tokenIn : Address
  tokenOut : Address
  size : U256
  minOut : U256
  deriving DecidableEq

/-- An unwritten slot. -/
def CommitmentRecord.empty : CommitmentRecord :=
  ⟨0, 0, .NONE, .ORDER_FILL, 0, 0, 0, 0⟩

structure CommitmentRegistry where
  /-- The ReentrancyGuard lock. -/
  entered : Bool
  verifiers : UInt8 → Address
  vault : Address
  dexAdapter : Address
  gasVault : Address
  guardian : Address
  paused : Bool
  oracleStaleness : U256
  priceFeeds : Address → Address
  commitments : Bytes32 → CommitmentRecord
  nullifiers : Bytes32 → Bool

structure CollateralVault where
  entered : Bool
  owner : Address
  registry : Address
  /-- user, token -/
  freeBalance : Address → Address → ℕ
  /-- commitment hash, token -/
  lockedBalance : Bytes32 → Address → ℕ

structure GasVault where
  entered : Bool
  owner : Address
  registry : Address
  balanceOf : Address → ℕ

-- =================================================================== events

inductive RegistryEvent where
  | CommitmentRegistered (commitmentHash : Bytes32)
      (owner tokenIn tokenOut : Address) (size : U256) (expiry : UInt64)
      (kind : CommitmentKind)
  | VerifierSet (kind : UInt8) (verifier : Address)
  | CommitmentExecuted (commitmentHash : Bytes32) (owner executor : Address)
      (nullifier : Bytes32) (fillRef : UInt64) (amountOut : U256)
      (kind : CommitmentKind)
  | CommitmentCancelled (commitmentHash : Bytes32) (owner : Address)
  | CommitmentExpired (commitmentHash : Bytes32) (owner : Address)
  | DEXAdapterChanged (oldAdapter newAdapter : Address)
  | CollateralVaultChanged (oldVault newVault : Address)
  | GasVaultChanged (oldVault newVault : Address)
  | PriceFeedSet (token feed : Address)
  | OracleStalenessSet (oldValue newValue : U256)
  | Paused (guardian : Address)
  | Unpaused (guardian : Address)
  deriving DecidableEq

inductive VaultEvent where
  | Deposited (user token : Address) (amount : U256)
  | Withdrawn (user token : Address) (amount : U256)
  | CollateralLocked (commitmentHash : Bytes32) (token : Address) (amount : U256)
  | CollateralReleased (commitmentHash : Bytes32) (token : Address)
      (amount : U256) (dst : Address)
  | CollateralReturned (commitmentHash : Bytes32) (user token : Address)
      (amount : U256)
  | RegistryChanged (oldRegistry newRegistry : Address)
  deriving DecidableEq

inductive GasVaultEvent where
  | Deposited (user : Address) (amount : ℕ)
  | Withdrawn (user : Address) (amount : ℕ)
  | Debited (user keeper : Address) (amount : ℕ) (commitmentHash : Bytes32)
  | RegistryChanged (oldRegistry newRegistry : Address)
  deriving DecidableEq

/-- One log entry, with the contract that emitted it. -/
inductive Event where
  | registry (e : RegistryEvent)
  | vault (emitter : Address) (e : VaultEvent)
  | gasVault (e : GasVaultEvent)
  deriving DecidableEq

-- ==================================================================== calls

/-- The fields of a call that the contracts read. -/
structure Msg where
  sender : Address
  value : U256
  /-- `tx.gasprice`. -/
  gasprice : U256
  /-- `gasStart - gasleft()` where `executeCommitment` reads it. -/
  gasUsed : U256

/-- The public entry points. A vault or adapter call names its instance. -/
inductive Call where
  | deposit (vault token : Address) (amount : U256)
  | withdraw (vault token : Address) (amount : U256)
  | lockCollateral (vault : Address) (commitmentHash : Bytes32)
      (user token : Address) (amount : U256)
  | releaseForExecution (vault : Address) (commitmentHash : Bytes32)
      (token : Address) (amount : U256) (dst : Address)
  | returnCollateral (vault : Address) (commitmentHash : Bytes32)
      (user token : Address) (amount : U256)
  | setVaultRegistry (vault registry : Address)
  | transferVaultOwnership (vault newOwner : Address)
  | renounceVaultOwnership (vault : Address)
  | registerCommitment (commitmentHash : Bytes32) (tokenIn tokenOut : Address)
      (size minOut : U256) (expiry : UInt64) (kind : CommitmentKind)
  | registerCommitmentBatch (commitmentHashes : List Bytes32)
      (tokenIn tokenOut : Address) (sizes minOuts : List U256)
      (expiries : List UInt64) (kind : CommitmentKind)
  | executeCommitment (commitmentHash nullifier : Bytes32) (proof : List UInt8)
      (fillRef : UInt64)
  | cancelCommitment (commitmentHash nullifier : Bytes32)
  | sweepExpired (commitmentHashes : List Bytes32)
  | pause
  | unpause
  | setDEXAdapter (newAdapter : Address)
  | setGasVault (newVault : Address)
  | setCollateralVault (newVault : Address)
  | setGuardian (newGuardian : Address)
  | setPriceFeed (token feed : Address)
  | setOracleStaleness (newValue : U256)
  | setVerifier (kind : UInt8) (verifier : Address)
  | gasDeposit
  | gasReceive
  | gasWithdraw (amount : U256)
  | gasDebit (user keeper : Address) (amount : U256) (commitmentHash : Bytes32)
  | setGasVaultRegistry (registry : Address)
  | transferGasVaultOwnership (newOwner : Address)
  | renounceGasVaultOwnership
  | adapterSwap (adapter tokenIn tokenOut : Address) (amountIn minOut : U256)
      (recipient : Address)
  deriving DecidableEq

/-- A call that returned, with the block time it was made at. -/
structure Receipt where
  timestamp : ℕ
  sender : Address
  call : Call
  deriving DecidableEq

-- =================================================================== world

/-- What a Chainlink feed answers; only these fields are read. -/
structure Feed where
  answer : ℤ
  updatedAt : ℕ
  decimals : UInt8

/-- What outside contracts answer to static calls, and which transfers a
standard token refuses (paused token, missing allowance, blocked account). -/
structure Externals where
  /-- `none`: the call reverts. -/
  feed : Address → Option Feed
  verify : Address → List UInt8 → List Bytes32 → Bool
  /-- token, sender, receiver, amount -/
  refuses : Address → Address → Address → ℕ → Bool

structure World where
  timestamp : ℕ
  registry : CommitmentRegistry
  vaults : Address → CollateralVault
  gasVault : GasVault
  /-- `routerApproved` of each UniswapV3Adapter instance. -/
  routerApproved : Address → Address → Bool
  /-- token, account; meaningful for the standard tokens. -/
  balances : Address → Address → ℕ
  eth : Address → ℕ
  ext : Externals
  log : List Event
  /-- The calls that returned and were not rolled back, in the order of
  their returns. -/
  receipts : List Receipt

/-- The immutables of a UniswapV3Adapter. -/
structure AdapterParams where
  router : Address
  feeTier : ℕ

/-- Which addresses are our contracts, and which tokens are ERC-20s whose
`transfer` and `transferFrom` move exactly the requested amount or revert
and never call out. -/
structure Net where
  registry : Address
  gasVault : Address
  isVault : Address → Bool
  adapter : Address → Option AdapterParams
  standard : Address → Bool

/-- An address whose code is known, so that no call of outside code is
sent from it. -/
def Net.ours (net : Net) (a : Address) : Bool :=
  a == net.registry || a == net.gasVault || net.isVault a
    || (net.adapter a).isSome || net.standard a

-- ============================================================ outside calls

structure ExactInputSingleParams where
  tokenIn : Address
  tokenOut : Address
  fee : ℕ
  recipient : Address
  amountIn : U256
  amountOutMinimum : U256
  sqrtPriceLimitX96 : ℕ
  deriving DecidableEq

/-- A call to code that is not ours. The first address is the callee. -/
inductive Request where
  | transferFrom (token src dst : Address) (amount : U256)
  | transfer (token dst : Address) (amount : U256)
  | approve (token spender : Address)
  | swap (adapter tokenIn tokenOut : Address) (amountIn minOut : U256)
      (recipient : Address)
  | exactInputSingle (router : Address) (params : ExactInputSingleParams)
  | lockCollateral (vault : Address) (commitmentHash : Bytes32)
      (user token : Address) (amount : U256)
  | releaseForExecution (vault : Address) (commitmentHash : Bytes32)
      (token : Address) (amount : U256) (dst : Address)
  | returnCollateral (vault : Address) (commitmentHash : Bytes32)
      (user token : Address) (amount : U256)
  | debit (gasVault user keeper : Address) (amount : ℕ)
      (commitmentHash : Bytes32)
  | sendEth (dst : Address) (amount : ℕ)
  deriving DecidableEq

/-- What comes back: the returned word (unused where the callee returns
nothing), and what a swap router really paid its recipient. -/
structure Reply where
  returned : U256
  paid : U256

/-- Contract code: it runs on the world and may call out. -/
abbrev Contract := Code World Request Reply

-- ============================================================ world updates

namespace World

def onRegistry (f : CommitmentRegistry → CommitmentRegistry) (w : World) : World :=
  { w with registry := f w.registry }

def onVault (v : Address) (f : CollateralVault → CollateralVault) (w : World) :
    World :=
  { w with vaults := Function.update w.vaults v (f (w.vaults v)) }

def onGasVault (f : GasVault → GasVault) (w : World) : World :=
  { w with gasVault := f w.gasVault }

/-- A token transfer: first out of `src`, then into `dst`. -/
def moveToken (token src dst : Address) (amount : ℕ) (w : World) : World :=
  let out := update2 w.balances token src (w.balances token src - amount)
  { w with balances := update2 out token dst (out token dst + amount) }

/-- New tokens for `dst`. -/
def mintToken (token dst : Address) (amount : ℕ) (w : World) : World :=
  { w with balances :=
      update2 w.balances token dst (w.balances token dst + amount) }

/-- A native transfer. -/
def moveEth (src dst : Address) (amount : ℕ) (w : World) : World :=
  let out := Function.update w.eth src (w.eth src - amount)
  { w with eth := Function.update out dst (out dst + amount) }

def emit (e : Event) (w : World) : World :=
  { w with log := w.log ++ [e] }

end World

end Zstrategy.Contracts
