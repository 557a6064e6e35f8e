/-
Which contract writes what. `Apart f` says that `f` reads nothing that the
vaults, the registry and the adapter write: then none of their functions
writes `f`, and only the gas vault's and those that call it are left.
`Aside f` says the same of the gas vault too; the clock and the receipts
are such.

`f` is a variable of the sections, so each instance is found once and serves
every such `f`.
-/
import Zstrategy.Contracts.Chain
import Zstrategy.Lib.Frames

namespace Zstrategy.Contracts

open Lib Code

variable {net : Net} {τ : Type} {f : World → τ}

/-- `f` reads nothing that the collateral side writes. -/
class Apart (f : World → τ) : Prop where
  vault : ∀ v g w, f (World.onVault v g w) = f w
  registry : ∀ g, (∀ r, (g r).gasVault = r.gasVault) → ∀ w, f (World.onRegistry g w) = f w
  token : ∀ t src dst a w, f (World.moveToken t src dst a w) = f w
  log : ∀ e w, f (World.emit e w) = f w
  approved : ∀ g w, f { w with routerApproved := g } = f w

/-- `f` reads nothing that any of the contracts writes. -/
class Aside (f : World → τ) : Prop extends Apart f where
  anyRegistry : ∀ g w, f (World.onRegistry g w) = f w
  gasVault : ∀ g w, f (World.onGasVault g w) = f w
  eth : ∀ src dst a w, f (World.moveEth src dst a w) = f w

section Apart

variable [hf : Apart f]

instance frames_onVault (v : Address) (g : CollateralVault → CollateralVault) :
    (modify (World.onVault v g) : Contract Unit).Frames f :=
  .modify (hf.vault v g)

instance frames_moveToken (t src dst : Address) (a : ℕ) :
    (modify (World.moveToken t src dst a) : Contract Unit).Frames f :=
  .modify (hf.token t src dst a)

instance frames_emit (e : Event) : (modify (World.emit e) : Contract Unit).Frames f :=
  .modify (hf.log e)

theorem frames_onRegistry {g : CommitmentRegistry → CommitmentRegistry}
    (hg : ∀ r, (g r).gasVault = r.gasVault) :
    (modify (World.onRegistry g) : Contract Unit).Frames f :=
  .modify (hf.registry g hg)

-- ================================================================ the programs

instance frames_safeTransferFrom (t src dst : Address) (a : U256) :
    (safeTransferFrom net t src dst a).Frames f := by
  unfold safeTransferFrom standardMove
  infer_instance

instance frames_safeTransfer (self t dst : Address) (a : U256) :
    (safeTransfer net self t dst a).Frames f := by
  unfold safeTransfer standardMove
  infer_instance

namespace CollateralVault

variable (m : Msg) (v u t sender : Address) (h : Bytes32) (a : U256)

instance frames_emit (e : VaultEvent) : (emit v e).Frames f :=
  Contracts.frames_emit _

instance frames_onlyRegistry : (onlyRegistry sender v).Frames f := by
  unfold onlyRegistry
  infer_instance

instance frames_onlyOwner : (onlyOwner sender v).Frames f := by
  unfold onlyOwner
  infer_instance

instance frames_nonReentrant {body : Contract Unit} [hbody : body.Frames f] :
    (nonReentrant v body).Frames f := by
  unfold nonReentrant
  infer_instance

instance frames_subFree : (subFree v u t a).Frames f := by
  unfold subFree
  infer_instance

instance frames_addFree : (addFree v u t a).Frames f := by
  unfold addFree
  infer_instance

instance frames_subLocked : (subLocked v h t a).Frames f := by
  unfold subLocked
  infer_instance

instance frames_addLocked : (addLocked v h t a).Frames f := by
  unfold addLocked
  infer_instance

instance frames_deposit : (deposit net m v t a).Frames f := by
  unfold deposit
  infer_instance

instance frames_withdraw : (withdraw net m v t a).Frames f := by
  unfold withdraw
  infer_instance

instance frames_lockCollateral : (lockCollateral sender v h u t a).Frames f := by
  unfold lockCollateral
  infer_instance

instance frames_releaseForExecution (dst : Address) :
    (releaseForExecution net sender v h t a dst).Frames f := by
  unfold releaseForExecution
  infer_instance

instance frames_returnCollateral : (returnCollateral sender v h u t a).Frames f := by
  unfold returnCollateral
  infer_instance

instance frames_setRegistry (x : Address) : (setRegistry m v x).Frames f := by
  unfold setRegistry
  infer_instance

instance frames_transferOwnership (x : Address) : (transferOwnership m v x).Frames f := by
  unfold transferOwnership
  infer_instance

instance frames_renounceOwnership : (renounceOwnership m v).Frames f := by
  unfold renounceOwnership
  infer_instance

end CollateralVault

instance UniswapV3Adapter.frames_swap (self : Address) (p : AdapterParams)
    (tIn tOut r : Address) (a y : U256) : (swap net self p tIn tOut a y r).Frames f := by
  have happroved : (modify fun w : World =>
      { w with routerApproved := update2 w.routerApproved self tIn true }
      : Contract Unit).Frames f := .modify fun w => hf.approved _ w
  unfold swap forceApprove
  infer_instance

namespace CommitmentRegistry

variable (m : Msg) (h n : Bytes32) (tIn tOut : Address) (kind : CommitmentKind)

instance frames_emit (e : RegistryEvent) : (emit e).Frames f :=
  Contracts.frames_emit _

instance frames_setRecord (r : CommitmentRecord) : (setRecord h r).Frames f :=
  frames_onRegistry fun _ => rfl

instance frames_setStatus (st : CommitmentStatus) : (setStatus h st).Frames f := by
  unfold setStatus
  infer_instance

instance frames_spend : (spend n).Frames f :=
  frames_onRegistry fun _ => rfl

instance frames_whenNotPaused : whenNotPaused.Frames f := by
  unfold whenNotPaused
  infer_instance

instance frames_onlyGuardian : (onlyGuardian m).Frames f := by
  unfold onlyGuardian
  infer_instance

instance frames_nonReentrant {body : Contract Unit} [hbody : body.Frames f] :
    (nonReentrant body).Frames f := by
  have hset : ∀ b, (modify (World.onRegistry fun r => { r with entered := b })
      : Contract Unit).Frames f := fun _ => frames_onRegistry fun _ => rfl
  unfold nonReentrant
  infer_instance

instance frames_vaultLock (u t : Address) (a : U256) : (vaultLock net h u t a).Frames f := by
  unfold vaultLock
  infer_instance

instance frames_vaultRelease (t dst : Address) (a : U256) :
    (vaultRelease net h t a dst).Frames f := by
  unfold vaultRelease
  infer_instance

instance frames_vaultReturn (u t : Address) (a : U256) :
    (vaultReturn net h u t a).Frames f := by
  unfold vaultReturn
  infer_instance

instance frames_openCommitment (r : CommitmentRecord) : (openCommitment net h r).Frames f := by
  unfold openCommitment
  infer_instance

instance frames_registerCommitment (size minOut : U256) (expiry : UInt64) :
    (registerCommitment net m h tIn tOut size minOut expiry kind).Frames f := by
  unfold registerCommitment
  infer_instance

instance frames_registerRows (rows : List BatchRow) :
    (registerRows net m tIn tOut kind rows).Frames f := by
  induction rows with
  | nil => exact .pure ()
  | cons row rows ih =>
      unfold registerRows registerRow
      infer_instance

instance frames_registerCommitmentBatch (hs : List Bytes32) (sizes minOuts : List U256)
    (expiries : List UInt64) :
    (registerCommitmentBatch net m hs tIn tOut sizes minOuts expiries kind).Frames f := by
  unfold registerCommitmentBatch
  infer_instance

instance frames_adapterSwap (x y : U256) (r : Address) :
    (adapterSwap net tIn tOut x y r).Frames f := by
  have hswap : ∀ w : World, (match net.adapter w.registry.dexAdapter with
      | some a => UniswapV3Adapter.swap net w.registry.dexAdapter a tIn tOut x y r
      | none => do
          let z ← ask (.swap w.registry.dexAdapter tIn tOut x y r)
          return z.returned : Contract U256).Frames f := by
    intro w
    cases net.adapter w.registry.dexAdapter with
    | some a => exact UniswapV3Adapter.frames_swap _ _ _ _ _ _ _
    | none => exact .bind
  unfold adapterSwap
  infer_instance

instance frames_authorise (proof : List UInt8) (x : UInt64) :
    (authorise h n proof x).Frames f := by
  unfold authorise
  infer_instance

instance frames_cancelCommitment : (cancelCommitment net m h n).Frames f := by
  unfold cancelCommitment
  infer_instance

instance frames_sweepAll (hs : List Bytes32) : (sweepAll net hs).Frames f := by
  induction hs with
  | nil => exact .pure ()
  | cons h hs ih =>
      unfold sweepAll sweepOne
      infer_instance

instance frames_sweepExpired (hs : List Bytes32) : (sweepExpired net hs).Frames f := by
  unfold sweepExpired
  infer_instance

instance frames_pause : (pause m).Frames f := by
  have hset : (modify (World.onRegistry fun r =>
      { r with paused := true }) : Contract Unit).Frames f :=
    frames_onRegistry fun _ => rfl
  unfold pause
  infer_instance

instance frames_unpause : (unpause m).Frames f := by
  have hset : (modify (World.onRegistry fun r =>
      { r with paused := false }) : Contract Unit).Frames f :=
    frames_onRegistry fun _ => rfl
  unfold unpause
  infer_instance

instance frames_setDEXAdapter (x : Address) : (setDEXAdapter m x).Frames f := by
  have hset : (modify (World.onRegistry fun r =>
      { r with dexAdapter := x }) : Contract Unit).Frames f :=
    frames_onRegistry fun _ => rfl
  unfold setDEXAdapter
  infer_instance

instance frames_setCollateralVault (x : Address) : (setCollateralVault m x).Frames f := by
  have hset : (modify (World.onRegistry fun r =>
      { r with vault := x }) : Contract Unit).Frames f :=
    frames_onRegistry fun _ => rfl
  unfold setCollateralVault
  infer_instance

instance frames_setGuardian (x : Address) : (setGuardian m x).Frames f := by
  have hset : (modify (World.onRegistry fun r =>
      { r with guardian := x }) : Contract Unit).Frames f :=
    frames_onRegistry fun _ => rfl
  unfold setGuardian
  infer_instance

instance frames_setPriceFeed (x y : Address) : (setPriceFeed m x y).Frames f := by
  have hset : (modify (World.onRegistry fun r =>
      { r with priceFeeds := Function.update r.priceFeeds x y }) : Contract Unit).Frames f :=
    frames_onRegistry fun _ => rfl
  unfold setPriceFeed
  infer_instance

instance frames_setOracleStaleness (x : U256) : (setOracleStaleness m x).Frames f := by
  have hset : (modify (World.onRegistry fun r =>
      { r with oracleStaleness := x }) : Contract Unit).Frames f :=
    frames_onRegistry fun _ => rfl
  unfold setOracleStaleness
  infer_instance

instance frames_setVerifier (k : UInt8) (x : Address) : (setVerifier m k x).Frames f := by
  have hset : (modify (World.onRegistry fun r =>
      { r with verifiers := Function.update r.verifiers k x }) : Contract Unit).Frames f :=
    frames_onRegistry fun _ => rfl
  unfold setVerifier
  infer_instance

end CommitmentRegistry

instance frames_nonpayable (m : Msg) {body : Contract Unit} [hbody : body.Frames f] :
    (nonpayable m body).Frames f := by
  unfold nonpayable
  infer_instance

end Apart

-- =============================================================== the gas vault

section Aside

variable [hf : Aside f]

instance frames_onGasVault (g : GasVault → GasVault) :
    (modify (World.onGasVault g) : Contract Unit).Frames f :=
  .modify (hf.gasVault g)

instance frames_moveEth (src dst : Address) (a : ℕ) :
    (modify (World.moveEth src dst a) : Contract Unit).Frames f :=
  .modify (hf.eth src dst a)

namespace GasVault

variable (m : Msg) (u dst sender : Address) (x : ℕ)

instance frames_emit (e : GasVaultEvent) : (emit e).Frames f :=
  Contracts.frames_emit _

instance frames_onlyRegistry : (onlyRegistry sender).Frames f := by
  unfold onlyRegistry
  infer_instance

instance frames_onlyOwner : (onlyOwner sender).Frames f := by
  unfold onlyOwner
  infer_instance

instance frames_nonReentrant {body : Contract Unit} [hbody : body.Frames f] :
    (nonReentrant body).Frames f := by
  unfold nonReentrant
  infer_instance

instance frames_credit : (credit u x).Frames f := by
  unfold credit addBalance
  infer_instance

instance frames_sendValue (e : String) : (sendValue net dst x e).Frames f := by
  unfold sendValue
  infer_instance

instance frames_deposit : (deposit net m).Frames f := by
  unfold deposit receiveValue
  infer_instance

instance frames_withdraw (a : U256) : (withdraw net m a).Frames f := by
  unfold withdraw subBalance
  infer_instance

instance frames_debit (k : Address) (h : Bytes32) : (debit net sender u k x h).Frames f := by
  unfold debit subBalance
  infer_instance

instance frames_setRegistry (r : Address) : (setRegistry m r).Frames f := by
  unfold setRegistry
  infer_instance

instance frames_transferOwnership (y : Address) : (transferOwnership m y).Frames f := by
  unfold transferOwnership
  infer_instance

instance frames_renounceOwnership : (renounceOwnership m).Frames f := by
  unfold renounceOwnership
  infer_instance

end GasVault

namespace CommitmentRegistry

variable (m : Msg) (h n : Bytes32)

instance frames_debitGas (u : Address) : (debitGas net m u h).Frames f := by
  unfold debitGas gasVaultDebit
  infer_instance

instance frames_executeCommitment (proof : List UInt8) (x : UInt64) :
    (executeCommitment net m h n proof x).Frames f := by
  unfold executeCommitment
  infer_instance

instance frames_setGasVault (x : Address) : (setGasVault m x).Frames f := by
  have hset : (modify (World.onRegistry fun r => { r with gasVault := x })
      : Contract Unit).Frames f := .modify (hf.anyRegistry _)
  unfold setGasVault
  infer_instance

end CommitmentRegistry

/-- No entry point writes what is aside. -/
instance frames_dispatch (m : Msg) (call : Call) : (dispatch net m call).Frames f := by
  cases call with
  | gasDeposit => exact GasVault.frames_deposit m
  | gasReceive => exact GasVault.frames_deposit m
  | adapterSwap x tIn tOut amountIn minOut recipient =>
      rw [dispatch]
      cases net.adapter x with
      | none => exact ⟨fun _ => trivial⟩
      | some a => apply frames_nonpayable
  | _ => exact frames_nonpayable m

end Aside

end Zstrategy.Contracts
