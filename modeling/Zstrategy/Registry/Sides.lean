/-
What the vaults, the gas vault and the adapter never write: the registry's
storage and the registry's part of the log. `OnRegistry f` says that `f`
reads nothing else; then every function of another contract frames `f`,
and so does each of the registry's calls to one.

Most of the file is instances, so that the proofs about the log and the
settings pass over the calls to other contracts without a word.
-/
import Zstrategy.Contracts.Chain
import Zstrategy.Contracts.Rules
import Zstrategy.Lib.Frames

namespace Zstrategy.Contracts

open Lib Code

open CommitmentRegistry (setGuardian pause unpause setDEXAdapter setGasVault setCollateralVault
  setPriceFeed setOracleStaleness setVerifier wp_onlyGuardian wp_emit)

open Function (update)

variable {net : Net} {τ : Type} {f : World → τ}

-- ========================================================== the registry's log

def Event.registry? : Event → Option RegistryEvent
  | .registry e => some e
  | _ => none

/-- The events of the registry, in their order. -/
def World.registryLog (w : World) : List RegistryEvent := w.log.filterMap Event.registry?

@[simp] theorem registryLog_emit (e : RegistryEvent) (w : World) :
    (w.emit (.registry e)).registryLog = w.registryLog ++ [e] := by
  simp [World.registryLog, World.emit, Event.registry?]

theorem registryLog_emit_other {e : Event} (he : e.registry? = none) (w : World) :
    (w.emit e).registryLog = w.registryLog := by
  simp [World.registryLog, World.emit, he]

/-- `f` reads only the registry's storage and log. -/
class OnRegistry (f : World → τ) : Prop where
  reads : ∀ w w' : World, w'.registry = w.registry → w'.registryLog = w.registryLog → f w' = f w

instance : OnRegistry World.registry := ⟨fun _ _ h _ => h⟩

instance : OnRegistry fun w : World => (w.registry, w.registryLog) :=
  ⟨fun _ _ h h' => Prod.ext h h'⟩

section OnRegistry

variable [hf : OnRegistry f]

theorem frames_off {g : World → World} (hg : ∀ w, (g w).registry = w.registry)
    (hlog : ∀ w, (g w).registryLog = w.registryLog) : (modify g : Contract Unit).Frames f :=
  .modify fun w => hf.reads w (g w) (hg w) (hlog w)

-- ============================================================ the other contracts

instance off_onVault (v : Address) (g : CollateralVault → CollateralVault) :
    (modify (World.onVault v g) : Contract Unit).Frames f :=
  frames_off (fun _ => rfl) fun _ => rfl

instance off_onGasVault (g : GasVault → GasVault) :
    (modify (World.onGasVault g) : Contract Unit).Frames f :=
  frames_off (fun _ => rfl) fun _ => rfl

instance off_moveToken (t src dst : Address) (a : ℕ) :
    (modify (World.moveToken t src dst a) : Contract Unit).Frames f :=
  frames_off (fun _ => rfl) fun _ => rfl

instance off_moveEth (src dst : Address) (a : ℕ) :
    (modify (World.moveEth src dst a) : Contract Unit).Frames f :=
  frames_off (fun _ => rfl) fun _ => rfl

instance off_receipt (m : Msg) (call : Call) : (receipt m call).Frames f :=
  frames_off (fun _ => rfl) fun _ => rfl

variable (m : Msg) (v u t sender dst : Address) (h : Bytes32) (a : U256) (x : ℕ)

namespace CollateralVault

instance off_emit (e : VaultEvent) : (emit v e).Frames f :=
  frames_off (fun _ => rfl) (registryLog_emit_other rfl)

instance off_deposit : (deposit net m v t a).Frames f := by
  unfold deposit nonReentrant safeTransferFrom standardMove addFree
  infer_instance

instance off_withdraw : (withdraw net m v t a).Frames f := by
  unfold withdraw nonReentrant safeTransfer standardMove subFree
  infer_instance

instance off_lockCollateral : (lockCollateral sender v h u t a).Frames f := by
  unfold lockCollateral onlyRegistry subFree addLocked
  infer_instance

instance off_releaseForExecution : (releaseForExecution net sender v h t a dst).Frames f := by
  unfold releaseForExecution onlyRegistry subLocked safeTransfer standardMove
  infer_instance

instance off_returnCollateral : (returnCollateral sender v h u t a).Frames f := by
  unfold returnCollateral onlyRegistry subLocked addFree
  infer_instance

instance off_setRegistry : (setRegistry m v dst).Frames f := by
  unfold setRegistry onlyOwner
  infer_instance

instance off_transferOwnership : (transferOwnership m v dst).Frames f := by
  unfold transferOwnership onlyOwner
  infer_instance

instance off_renounceOwnership : (renounceOwnership m v).Frames f := by
  unfold renounceOwnership onlyOwner
  infer_instance

end CollateralVault

namespace GasVault

instance off_emit (e : GasVaultEvent) : (emit e).Frames f :=
  frames_off (fun _ => rfl) (registryLog_emit_other rfl)

instance off_credit : (credit u x).Frames f := by
  unfold credit addBalance
  infer_instance

instance off_sendValue (reason : String) : (sendValue net dst x reason).Frames f := by
  unfold sendValue
  infer_instance

instance off_deposit : (deposit net m).Frames f := by
  unfold deposit receiveValue
  infer_instance

instance off_withdraw : (withdraw net m a).Frames f := by
  unfold withdraw nonReentrant subBalance
  infer_instance

instance off_debit : (debit net sender u dst x h).Frames f := by
  unfold debit onlyRegistry nonReentrant subBalance
  infer_instance

instance off_setRegistry : (setRegistry m dst).Frames f := by
  unfold setRegistry onlyOwner
  infer_instance

instance off_transferOwnership : (transferOwnership m dst).Frames f := by
  unfold transferOwnership onlyOwner
  infer_instance

instance off_renounceOwnership : (renounceOwnership m).Frames f := by
  unfold renounceOwnership onlyOwner
  infer_instance

end GasVault

instance UniswapV3Adapter.off_swap (p : AdapterParams) (tIn tOut r : Address) (y : U256) :
    (swap net v p tIn tOut a y r).Frames f := by
  have happroved : (modify fun w : World =>
      { w with routerApproved := update2 w.routerApproved v tIn true }
      : Contract Unit).Frames f := frames_off (fun _ => rfl) fun _ => rfl
  unfold swap forceApprove
  infer_instance

-- ======================================================== the registry's calls

namespace CommitmentRegistry

instance off_vaultLock : (vaultLock net h u t a).Frames f := by
  unfold vaultLock
  infer_instance

instance off_vaultRelease : (vaultRelease net h t a dst).Frames f := by
  unfold vaultRelease
  infer_instance

instance off_vaultReturn : (vaultReturn net h u t a).Frames f := by
  unfold vaultReturn
  infer_instance

instance off_adapterSwap (tIn tOut r : Address) (y : U256) :
    (adapterSwap net tIn tOut a y r).Frames f := by
  have hswap : ∀ w : World, (match net.adapter w.registry.dexAdapter with
      | some p => UniswapV3Adapter.swap net w.registry.dexAdapter p tIn tOut a y r
      | none => do
          let z ← ask (.swap w.registry.dexAdapter tIn tOut a y r)
          return z.returned : Contract U256).Frames f := by
    intro w
    cases net.adapter w.registry.dexAdapter with
    | some p => exact UniswapV3Adapter.off_swap _ _ _ _ _ _ _
    | none => exact .bind
  unfold adapterSwap
  infer_instance

instance off_debitGas : (debitGas net m u h).Frames f := by
  unfold debitGas gasVaultDebit
  infer_instance

end CommitmentRegistry

end OnRegistry

/-- Nor does the outside, which owns none of it. -/
theorem outside_off {e : Outside} {w w' : World} (he : e.effect net w = some w') :
    w'.registry = w.registry ∧ w'.log = w.log := by
  cases e with
  | externals x => cases he; exact ⟨rfl, rfl⟩
  | tick x => cases he; exact ⟨rfl, rfl⟩
  | transfer | mint | payEth =>
      simp only [Outside.effect] at he
      split at he
      · cases he; exact ⟨rfl, rfl⟩
      · cases he

-- ================================================================ entry points

/-- The calls that run code of the registry. -/
def Call.onRegistry : Call → Bool
  | .registerCommitment .. | .registerCommitmentBatch .. | .executeCommitment ..
  | .cancelCommitment .. | .sweepExpired .. | .pause | .unpause | .setDEXAdapter _
  | .setGasVault _ | .setCollateralVault _ | .setGuardian _ | .setPriceFeed ..
  | .setOracleStaleness _ | .setVerifier .. => true
  | _ => false

theorem off_nonpayable [OnRegistry f] (m : Msg) {body : Contract Unit} [body.Frames f] :
    (nonpayable m body).Frames f := by
  unfold nonpayable
  infer_instance

/-- A call to another contract writes nothing of the registry's. -/
theorem off_dispatch [OnRegistry f] (m : Msg) {call : Call} (hcall : call.onRegistry = false) :
    (dispatch net m call).Frames f := by
  cases call with
  | gasDeposit | gasReceive => exact GasVault.off_deposit m
  | adapterSwap x tIn tOut amountIn minOut recipient =>
      rw [dispatch]
      cases net.adapter x with
      | none => exact ⟨fun _ => trivial⟩
      | some a => apply off_nonpayable
  | deposit | withdraw | lockCollateral | releaseForExecution | returnCollateral
  | setVaultRegistry | transferVaultOwnership | renounceVaultOwnership | gasWithdraw
  | gasDebit | setGasVaultRegistry | transferGasVaultOwnership | renounceGasVaultOwnership =>
      exact off_nonpayable m
  | _ => cases hcall

-- ========================================================= the guardian's calls

/-- What a call of the guardian writes. -/
def Call.setter : Call → Option (CommitmentRegistry → CommitmentRegistry)
  | .pause => some fun r => { r with paused := true }
  | .unpause => some fun r => { r with paused := false }
  | .setDEXAdapter a => some fun r => { r with dexAdapter := a }
  | .setGasVault a => some fun r => { r with gasVault := a }
  | .setCollateralVault a => some fun r => { r with vault := a }
  | .setGuardian a => some fun r => { r with guardian := a }
  | .setPriceFeed t a => some fun r => { r with priceFeeds := update r.priceFeeds t a }
  | .setOracleStaleness x => some fun r => { r with oracleStaleness := x }
  | .setVerifier k a => some fun r => { r with verifiers := update r.verifiers k a }
  | _ => none

/-- What it announces; `setGuardian` is silent. -/
def Call.announces (sender : Address) (r : CommitmentRegistry) : Call → List RegistryEvent
  | .pause => [.Paused sender]
  | .unpause => [.Unpaused sender]
  | .setDEXAdapter a => [.DEXAdapterChanged r.dexAdapter a]
  | .setGasVault a => [.GasVaultChanged r.gasVault a]
  | .setCollateralVault a => [.CollateralVaultChanged r.vault a]
  | .setPriceFeed t a => [.PriceFeedSet t a]
  | .setOracleStaleness x => [.OracleStalenessSet r.oracleStaleness x]
  | .setVerifier k a => [.VerifierSet k a]
  | _ => []

/-- The world after a setter: its write and its announcement. -/
def World.set (w : World) (g : CommitmentRegistry → CommitmentRegistry)
    (events : List RegistryEvent) : World :=
  { w with registry := g w.registry, log := w.log ++ events.map .registry }

@[simp] theorem registryLog_set (w : World) (g : CommitmentRegistry → CommitmentRegistry)
    (events : List RegistryEvent) : (w.set g events).registryLog = w.registryLog ++ events := by
  have hevents : (events.map Event.registry).filterMap Event.registry? = events := by
    rw [List.filterMap_map]
    exact List.filterMap_some
  unfold World.registryLog World.set
  rw [List.filterMap_append, hevents]

/-- A setter passes its checks, writes and announces; only the guardian
gets that far. -/
theorem dispatch_setter {Γ : Rely World Request Reply} {m : Msg} {call : Call} {w : World}
    {g : CommitmentRegistry → CommitmentRegistry} {Q : Unit → World → Prop}
    (herr : ∀ e, Γ.err e) (hcall : call.setter = some g)
    (hQ : m.sender = w.registry.guardian → Q () (w.set g (call.announces m.sender w.registry))) :
    (dispatch net m call).wp Γ Q w := by
  have check : ∀ {p q : Prop} {e : String}, (p → q) → (p → q) ∧ (¬p → Γ.err e) :=
    fun h => ⟨h, fun _ => herr _⟩
  cases call with
  | setGuardian a =>
      cases hcall
      simp only [dispatch, nonpayable, setGuardian, wp_bind, wp_require, wp_onlyGuardian,
        wp_modify]
      refine check fun _ => check fun hm => check fun _ => ?_
      have hsilent : w.log ++ (Call.announces m.sender w.registry (.setGuardian a)).map .registry
          = w.log := List.append_nil _
      have hworld := hQ hm
      rw [World.set, hsilent] at hworld
      exact hworld
  | pause | unpause =>
      cases hcall
      simp only [dispatch, nonpayable, pause, unpause, wp_bind, wp_require, wp_onlyGuardian,
        wp_modify, wp_emit]
      exact check fun _ => check hQ
  | setDEXAdapter | setGasVault | setCollateralVault | setPriceFeed | setOracleStaleness
  | setVerifier =>
      cases hcall
      simp only [dispatch, nonpayable, setDEXAdapter, setGasVault, setCollateralVault,
        setPriceFeed, setOracleStaleness, setVerifier, wp_bind, wp_require, wp_onlyGuardian,
        wp_modify, wp_emit, wp_read]
      exact check fun _ => check fun hm => check fun _ => hQ hm
  | _ => cases hcall

end Zstrategy.Contracts
