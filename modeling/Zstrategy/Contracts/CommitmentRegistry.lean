/-
`CommitmentRegistry.sol`: registration, execution, cancellation, expiry
and the guardian's setters.

The registry reaches its collaborators through addresses the guardian can
change. Where the address is a `CollateralVault`, the `GasVault` or a
`UniswapV3Adapter` we know, its code runs in the same call; elsewhere the
callee is outside code. Feeds and verifiers are static calls and cannot
re-enter, so they are read off the world. A storage pointer `c` is read
again at every use, as the source does, because control may have left in
between.
-/
import Zstrategy.Contracts.CollateralVault
import Zstrategy.Contracts.GasVault
import Zstrategy.Contracts.UniswapV3Adapter

namespace Zstrategy.Contracts

open Lib Code

variable (net : Net)

namespace CommitmentRegistry

def KEEPER_PREMIUM_BPS : ℕ := 12000

/-- 5 minutes. -/
def DCA_FILL_REF_MAX_AGE : ℕ := 300

/-- Storage after the constructor; `none` if it reverts. -/
def constructor (gasVault collateralVault dexAdapter guardian : Address) :
    Except String CommitmentRegistry :=
  if gasVault = 0 then .error "Registry: zero gas vault"
  else if collateralVault = 0 then .error "Registry: zero vault"
  else if dexAdapter = 0 then .error "Registry: zero adapter"
  else if guardian = 0 then .error "Registry: zero guardian"
  else .ok
    { entered := false, verifiers := fun _ => 0, vault := collateralVault,
      dexAdapter, gasVault, guardian, paused := false,
      oracleStaleness := 3600, priceFeeds := fun _ => 0,
      commitments := fun _ => .empty, nullifiers := fun _ => false }

-- ================================================================ modifiers

/-- The ReentrancyGuard around `body`. -/
def nonReentrant (body : Contract Unit) : Contract Unit := do
  let w ← read
  require (w.registry.entered = false) "ReentrancyGuardReentrantCall()"
  modify (World.onRegistry fun r => { r with entered := true })
  body
  modify (World.onRegistry fun r => { r with entered := false })

def whenNotPaused : Contract Unit := do
  let w ← read
  require (w.registry.paused = false) "Registry: paused"

def onlyGuardian (m : Msg) : Contract Unit := do
  let w ← read
  require (m.sender = w.registry.guardian) "Registry: caller not guardian"

def emit (e : RegistryEvent) : Contract Unit :=
  modify (World.emit (.registry e))

-- ===================================================== calls to collaborators

/-- `vault.lockCollateral(…)`. -/
def vaultLock (commitmentHash : Bytes32) (user token : Address) (amount : U256) :
    Contract Unit := do
  let w ← read
  if net.isVault w.registry.vault then
    CollateralVault.lockCollateral net.registry w.registry.vault commitmentHash
      user token amount
  else do
    let _ ← ask
      (.lockCollateral w.registry.vault commitmentHash user token amount)

/-- `vault.releaseForExecution(…)`. -/
def vaultRelease (commitmentHash : Bytes32) (token : Address) (amount : U256)
    (dst : Address) : Contract Unit := do
  let w ← read
  if net.isVault w.registry.vault then
    CollateralVault.releaseForExecution net net.registry w.registry.vault
      commitmentHash token amount dst
  else do
    let _ ← ask
      (.releaseForExecution w.registry.vault commitmentHash token amount dst)

/-- `vault.returnCollateral(…)`. -/
def vaultReturn (commitmentHash : Bytes32) (user token : Address)
    (amount : U256) : Contract Unit := do
  let w ← read
  if net.isVault w.registry.vault then
    CollateralVault.returnCollateral net.registry w.registry.vault
      commitmentHash user token amount
  else do
    let _ ← ask
      (.returnCollateral w.registry.vault commitmentHash user token amount)

/-- `dexAdapter.swap(…)`. -/
def adapterSwap (tokenIn tokenOut : Address) (amountIn minOut : U256)
    (recipient : Address) : Contract U256 := do
  let w ← read
  match net.adapter w.registry.dexAdapter with
  | some a =>
      UniswapV3Adapter.swap net w.registry.dexAdapter a tokenIn tokenOut
        amountIn minOut recipient
  | none => do
      let x ← ask
        (.swap w.registry.dexAdapter tokenIn tokenOut amountIn minOut recipient)
      return x.returned

/-- `gasVault.debit(…)`. -/
def gasVaultDebit (user keeper : Address) (amount : ℕ)
    (commitmentHash : Bytes32) : Contract Unit := do
  let w ← read
  if w.registry.gasVault = net.gasVault then
    GasVault.debit net net.registry user keeper amount commitmentHash
  else do
    let _ ← ask
      (.debit w.registry.gasVault user keeper amount commitmentHash)

-- ============================================================= registration

/-- `commitments[commitmentHash] = record`. -/
def setRecord (commitmentHash : Bytes32) (record : CommitmentRecord) :
    Contract Unit :=
  modify (World.onRegistry fun r =>
    { r with commitments := Function.update r.commitments commitmentHash record })

/-- `commitments[commitmentHash].status = status`. -/
def setStatus (commitmentHash : Bytes32) (status : CommitmentStatus) :
    Contract Unit := do
  let w ← read
  setRecord commitmentHash
    { w.registry.commitments commitmentHash with status := status }

/-- The body both registration functions end in: store the record, lock
the collateral, emit. -/
def openCommitment (commitmentHash : Bytes32) (record : CommitmentRecord) :
    Contract Unit := do
  setRecord commitmentHash record
  vaultLock net commitmentHash record.owner record.tokenIn record.size
  emit (.CommitmentRegistered commitmentHash record.owner record.tokenIn
    record.tokenOut record.size record.expiry record.kind)

/-- The record a registration stores. -/
def newRecord (m : Msg) (tokenIn tokenOut : Address) (size minOut : U256)
    (expiry : UInt64) (kind : CommitmentKind) : CommitmentRecord :=
  { owner := m.sender, tokenIn, tokenOut, size, minOut, expiry,
    status := .PENDING, kind }

def registerCommitment (m : Msg) (commitmentHash : Bytes32)
    (tokenIn tokenOut : Address) (size minOut : U256) (expiry : UInt64)
    (kind : CommitmentKind) : Contract Unit :=
  nonReentrant do
    whenNotPaused
    let w ← read
    require (commitmentHash ≠ 0) "Registry: zero hash"
    require (tokenIn ≠ 0) "Registry: zero tokenIn"
    require (tokenOut ≠ 0) "Registry: zero tokenOut"
    require (tokenIn ≠ tokenOut) "Registry: same token"
    require (0 < size.val) "Registry: zero size"
    require (w.timestamp < expiry.toNat) "Registry: expiry in past"
    require (w.registry.verifiers kind.toUInt8 ≠ 0)
      "Registry: verifier not set for kind"
    require ((w.registry.commitments commitmentHash).status = .NONE)
      "Registry: duplicate commitment"
    openCommitment net commitmentHash
      (newRecord m tokenIn tokenOut size minOut expiry kind)

/-- One row of a batch: hash, size, minOut, expiry. -/
abbrev BatchRow := Bytes32 × U256 × U256 × UInt64

/-- The body of the batch loop. -/
def registerRow (m : Msg) (tokenIn tokenOut : Address) (kind : CommitmentKind)
    (row : BatchRow) : Contract Unit := do
  let (h, size, minOut, expiry) := row
  let w ← read
  require (h ≠ 0) "Registry: zero hash"
  require (0 < size.val) "Registry: zero size"
  require (w.timestamp < expiry.toNat) "Registry: expiry in past"
  require ((w.registry.commitments h).status = .NONE)
    "Registry: duplicate commitment"
  openCommitment net h (newRecord m tokenIn tokenOut size minOut expiry kind)

/-- `for (i = 0; i < n; i++)` over the rows. -/
def registerRows (m : Msg) (tokenIn tokenOut : Address)
    (kind : CommitmentKind) : List BatchRow → Contract Unit
  | [] => pure ()
  | row :: rows => do
      registerRow net m tokenIn tokenOut kind row
      registerRows m tokenIn tokenOut kind rows

/-- The arrays of a batch, read by index: row `i` is
`(hashes[i], sizes[i], minOuts[i], expiries[i])`. -/
def batchRows (hashes : List Bytes32) (sizes minOuts : List U256)
    (expiries : List UInt64) : List BatchRow :=
  hashes.zip (sizes.zip (minOuts.zip expiries))

def registerCommitmentBatch (m : Msg) (commitmentHashes : List Bytes32)
    (tokenIn tokenOut : Address) (sizes minOuts : List U256)
    (expiries : List UInt64) (kind : CommitmentKind) : Contract Unit :=
  nonReentrant do
    whenNotPaused
    let n := commitmentHashes.length
    let w ← read
    require (0 < n ∧ n ≤ 10) "Registry: batch size 1-10"
    require (sizes.length = n) "Registry: sizes length mismatch"
    require (minOuts.length = n) "Registry: minOuts length mismatch"
    require (expiries.length = n) "Registry: expiries length mismatch"
    require (tokenIn ≠ 0) "Registry: zero tokenIn"
    require (tokenOut ≠ 0) "Registry: zero tokenOut"
    require (tokenIn ≠ tokenOut) "Registry: same token"
    require (w.registry.verifiers kind.toUInt8 ≠ 0)
      "Registry: verifier not set for kind"
    registerRows net m tokenIn tokenOut kind
      (batchRows commitmentHashes sizes minOuts expiries)

-- ================================================================ execution

/-- `feed.latestRoundData()` and `feed.decimals()`. -/
def readFeed (w : World) (feed : Address) : Except String Feed :=
  match w.ext.feed feed with
  | some f => .ok f
  | none => .error "feed call reverted"

/-- `_readOraclePrice`. The two staleness checks are commented out in the
source. -/
def readOraclePrice (w : World) (tokenIn tokenOut : Address) :
    Except String UInt64 := do
  let feedIn := w.registry.priceFeeds tokenIn
  let feedOut := w.registry.priceFeeds tokenOut
  expect (feedIn ≠ 0) "Registry: no USD feed for tokenIn"
  expect (feedOut ≠ 0) "Registry: no USD feed for tokenOut"
  let roundIn ← readFeed w feedIn
  let roundOut ← readFeed w feedOut
  expect (0 < roundIn.answer) "Registry: invalid tokenIn oracle answer"
  expect (0 < roundOut.answer) "Registry: invalid tokenOut oracle answer"
  let dIn := roundIn.decimals.toNat
  let dOut := roundOut.decimals.toNat
  let scaleIn ← checkedSub 18 dIn
  let normIn ← checkedMul roundIn.answer.toNat (10 ^ scaleIn)
  let scaleOut ← checkedSub 18 dOut
  let normOut ← checkedMul roundOut.answer.toNat (10 ^ scaleOut)
  let scaled ← checkedMul normIn (10 ^ dOut)
  let priceU := scaled / normOut
  expect (0 < priceU) "Registry: derived price is zero"
  expect (priceU < 2 ^ 64) "Registry: oracle price overflow"
  return UInt64.ofNat priceU

/-- The fill-time reference: the oracle price for ORDER_FILL, the fresh
caller-supplied timestamp for DCA. -/
def fillReference (w : World) (c : CommitmentRecord) (fillRef : UInt64) :
    Except String UInt64 :=
  match c.kind with
  | .ORDER_FILL => do
      expect (fillRef = 0) "Registry: non-zero fillRef for ORDER_FILL"
      readOraclePrice w c.tokenIn c.tokenOut
  | .DCA => do
      expect (fillRef.toNat ≤ w.timestamp) "Registry: DCA fillRef in future"
      expect (w.timestamp - fillRef.toNat ≤ DCA_FILL_REF_MAX_AGE)
        "Registry: DCA fillRef stale"
      return fillRef

/-- The eight public inputs, in the order both circuits declare them. -/
def publicInputs (commitmentHash nullifier : Bytes32) (fillRef : UInt64)
    (c : CommitmentRecord) : List Bytes32 :=
  [commitmentHash, .ofUInt64 fillRef, nullifier, c.tokenIn.toBytes32,
    c.tokenOut.toBytes32, c.size, c.minOut, .ofUInt64 c.expiry]

/-- `_debitGas`: reimburse the executor, unless it is the owner. -/
def debitGas (m : Msg) (owner : Address) (commitmentHash : Bytes32) :
    Contract Unit :=
  if m.sender = owner then pure ()
  else do
    let x ← ofExcept (checkedMul m.gasUsed.val m.gasprice.val)
    let y ← ofExcept (checkedMul x KEEPER_PREMIUM_BPS)
    gasVaultDebit net owner m.sender (y / 10000) commitmentHash

/-- The checks of `executeCommitment`, up to the accepted proof; returns
the fill reference. -/
def authorise (commitmentHash nullifier : Bytes32) (proof : List UInt8)
    (fillRef : UInt64) : Contract UInt64 := do
  let w ← read
  let c := w.registry.commitments commitmentHash
  require (c.status = .PENDING) "Registry: not pending"
  require (w.timestamp ≤ c.expiry.toNat) "Registry: expired"
  require (w.registry.nullifiers nullifier = false) "Registry: nullifier spent"
  let kv := w.registry.verifiers c.kind.toUInt8
  require (kv ≠ 0) "Registry: verifier not set for kind"
  let fillRef ← ofExcept (fillReference w c fillRef)
  require (w.ext.verify kv proof (publicInputs commitmentHash nullifier fillRef c))
    "Registry: invalid proof"
  return fillRef

/-- `nullifiers[nullifier] = true`. -/
def spend (nullifier : Bytes32) : Contract Unit :=
  modify (World.onRegistry fun r =>
    { r with nullifiers := Function.update r.nullifiers nullifier true })

def executeCommitment (m : Msg) (commitmentHash nullifier : Bytes32)
    (proof : List UInt8) (fillRef : UInt64) : Contract Unit :=
  nonReentrant do
    whenNotPaused
    let fillRef ← authorise commitmentHash nullifier proof fillRef
    spend nullifier
    setStatus commitmentHash .EXECUTED
    let w ← read
    let c := w.registry.commitments commitmentHash
    vaultRelease net commitmentHash c.tokenIn c.size w.registry.dexAdapter
    let w ← read
    let c := w.registry.commitments commitmentHash
    let amountOut ← adapterSwap net c.tokenIn c.tokenOut c.size c.minOut c.owner
    let w ← read
    debitGas net m (w.registry.commitments commitmentHash).owner commitmentHash
    let w ← read
    let c := w.registry.commitments commitmentHash
    emit (.CommitmentExecuted commitmentHash c.owner m.sender nullifier fillRef
      amountOut c.kind)

-- ==================================================================== exits

def cancelCommitment (m : Msg) (commitmentHash nullifier : Bytes32) :
    Contract Unit :=
  nonReentrant do
    let w ← read
    let c := w.registry.commitments commitmentHash
    require (c.owner = m.sender) "Registry: not owner"
    require (c.status = .PENDING) "Registry: not pending"
    require (w.registry.nullifiers nullifier = false) "Registry: nullifier spent"
    spend nullifier
    setStatus commitmentHash .CANCELLED
    let w ← read
    let c := w.registry.commitments commitmentHash
    vaultReturn net commitmentHash m.sender c.tokenIn c.size
    emit (.CommitmentCancelled commitmentHash m.sender)

/-- The body of the sweep loop; `continue` is the `else` branch. -/
def sweepOne (h : Bytes32) : Contract Unit := do
  let w ← read
  let c := w.registry.commitments h
  if c.status = .PENDING ∧ c.expiry.toNat < w.timestamp then do
    setStatus h .EXPIRED
    vaultReturn net h c.owner c.tokenIn c.size
    let w ← read
    emit (.CommitmentExpired h (w.registry.commitments h).owner)
  else pure ()

def sweepAll : List Bytes32 → Contract Unit
  | [] => pure ()
  | h :: hs => do
      sweepOne net h
      sweepAll hs

def sweepExpired (commitmentHashes : List Bytes32) : Contract Unit :=
  nonReentrant (sweepAll net commitmentHashes)

-- ================================================================= guardian

def pause (m : Msg) : Contract Unit := do
  onlyGuardian m
  modify (World.onRegistry fun r => { r with paused := true })
  emit (.Paused m.sender)

def unpause (m : Msg) : Contract Unit := do
  onlyGuardian m
  modify (World.onRegistry fun r => { r with paused := false })
  emit (.Unpaused m.sender)

def setDEXAdapter (m : Msg) (newAdapter : Address) : Contract Unit := do
  onlyGuardian m
  require (newAdapter ≠ 0) "Registry: zero adapter"
  let w ← read
  emit (.DEXAdapterChanged w.registry.dexAdapter newAdapter)
  modify (World.onRegistry fun r => { r with dexAdapter := newAdapter })

def setGasVault (m : Msg) (newVault : Address) : Contract Unit := do
  onlyGuardian m
  require (newVault ≠ 0) "Registry: zero vault"
  let w ← read
  emit (.GasVaultChanged w.registry.gasVault newVault)
  modify (World.onRegistry fun r => { r with gasVault := newVault })

def setCollateralVault (m : Msg) (newVault : Address) : Contract Unit := do
  onlyGuardian m
  require (newVault ≠ 0) "Registry: zero vault"
  let w ← read
  emit (.CollateralVaultChanged w.registry.vault newVault)
  modify (World.onRegistry fun r => { r with vault := newVault })

def setGuardian (m : Msg) (newGuardian : Address) : Contract Unit := do
  onlyGuardian m
  require (newGuardian ≠ 0) "Registry: zero guardian"
  modify (World.onRegistry fun r => { r with guardian := newGuardian })

def setPriceFeed (m : Msg) (token feed : Address) : Contract Unit := do
  onlyGuardian m
  require (token ≠ 0) "Registry: zero token"
  modify (World.onRegistry fun r =>
    { r with priceFeeds := Function.update r.priceFeeds token feed })
  emit (.PriceFeedSet token feed)

def setOracleStaleness (m : Msg) (newValue : U256) : Contract Unit := do
  onlyGuardian m
  require (0 < newValue.val) "Registry: zero staleness"
  let w ← read
  emit (.OracleStalenessSet w.registry.oracleStaleness newValue)
  modify (World.onRegistry fun r => { r with oracleStaleness := newValue })

def setVerifier (m : Msg) (kind : UInt8) (verifier : Address) : Contract Unit := do
  onlyGuardian m
  require (verifier ≠ 0) "Registry: zero verifier"
  modify (World.onRegistry fun r =>
    { r with verifiers := Function.update r.verifiers kind verifier })
  emit (.VerifierSet kind verifier)

end CommitmentRegistry

end Zstrategy.Contracts
