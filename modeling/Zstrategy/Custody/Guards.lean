/-
The reentrancy guards are free between transactions: every function that
takes one gives it back, and one that reverts restores it. So no exit is
ever refused by a guard. And no function sets the clock, which only ticks
between transactions, so it never goes back.

Both facts are one frame: `World.steady` is the clock and the guards, and a
program is `Guarded` if it keeps them from its start to its return
(Lib/Keeps). The instances follow the text of the contracts; the only two
with an argument are those of `nonReentrant`, where what is taken is given
back.
-/
import Zstrategy.Contracts.Rules
import Zstrategy.Lib.Keeps

namespace Zstrategy.Contracts

open Lib Code

variable {net : Net}

-- ================================================================== guards

/-- The guards of the registry and of the vaults. -/
def World.guards (w : World) : Bool × (Address → Bool) :=
  (w.registry.entered, fun v => (w.vaults v).entered)

/-- The clock and the guards. -/
def World.steady (w : World) : ℕ × Bool × (Address → Bool) :=
  (w.timestamp, w.guards)

theorem steady_onVault (v : Address) {f : CollateralVault → CollateralVault}
    (hf : ∀ V, (f V).entered = V.entered) (w : World) :
    (w.onVault v f).steady = w.steady := by
  have hvaults : ∀ y, ((w.onVault v f).vaults y).entered = (w.vaults y).entered := by
    intro y
    by_cases hy : y = v
    · subst hy
      simp [World.onVault, hf]
    · simp [World.onVault, hy]
  exact Prod.ext rfl (Prod.ext rfl (funext hvaults))

/-- A program that leaves the clock and the guards as it found them. -/
abbrev Guarded {α : Type} (c : Contract α) : Prop :=
  c.Keeps World.steady

-- ================================================================ the programs

instance guarded_safeTransferFrom (t src dst : Address) (a : U256) :
    Guarded (safeTransferFrom net t src dst a) := by
  have hmove : Guarded (modify (World.moveToken t src dst a.val)) := .modify fun _ => rfl
  unfold safeTransferFrom standardMove
  infer_instance

instance guarded_safeTransfer (self t dst : Address) (a : U256) :
    Guarded (safeTransfer net self t dst a) := by
  have hmove : Guarded (modify (World.moveToken t self dst a.val)) := .modify fun _ => rfl
  unfold safeTransfer standardMove
  infer_instance

namespace CollateralVault

variable (m : Msg) (v u t sender : Address) (h : Bytes32) (a : U256)

instance guarded_emit (e : VaultEvent) : Guarded (emit v e) :=
  .modify fun _ => rfl

instance guarded_onlyRegistry : Guarded (onlyRegistry sender v) := by
  unfold onlyRegistry
  infer_instance

instance guarded_onlyOwner : Guarded (onlyOwner sender v) := by
  unfold onlyOwner
  infer_instance

instance guarded_subFree : Guarded (subFree v u t a) := by
  have hset : ∀ x, Guarded (modify (World.onVault v fun V =>
      { V with freeBalance := update2 V.freeBalance u t x })) :=
    fun x => .modify (steady_onVault v fun _ => rfl)
  unfold subFree
  infer_instance

instance guarded_addFree : Guarded (addFree v u t a) := by
  have hset : ∀ x, Guarded (modify (World.onVault v fun V =>
      { V with freeBalance := update2 V.freeBalance u t x })) :=
    fun x => .modify (steady_onVault v fun _ => rfl)
  unfold addFree
  infer_instance

instance guarded_subLocked : Guarded (subLocked v h t a) := by
  have hset : ∀ x, Guarded (modify (World.onVault v fun V =>
      { V with lockedBalance := update2 V.lockedBalance h t x })) :=
    fun x => .modify (steady_onVault v fun _ => rfl)
  unfold subLocked
  infer_instance

instance guarded_addLocked : Guarded (addLocked v h t a) := by
  have hset : ∀ x, Guarded (modify (World.onVault v fun V =>
      { V with lockedBalance := update2 V.lockedBalance h t x })) :=
    fun x => .modify (steady_onVault v fun _ => rfl)
  unfold addLocked
  infer_instance

theorem steady_setEntered (v : Address) (b : Bool) (w : World) :
    (w.setEntered v b).steady
      = (w.timestamp, w.registry.entered, Function.update w.guards.2 v b) := by
  have hvaults : ∀ y, ((w.setEntered v b).vaults y).entered
      = Function.update w.guards.2 v b y := by
    intro y
    by_cases hy : y = v
    · subst hy
      simp [World.setEntered, World.onVault]
    · simp [World.setEntered, World.onVault, World.guards, hy]
  exact Prod.ext rfl (Prod.ext rfl (funext hvaults))

/-- The guard is taken and given back. -/
instance guarded_nonReentrant {body : Contract Unit} [hbody : Guarded body] :
    Guarded (nonReentrant v body) := by
  refine ⟨fun w => (wp_nonReentrant v body _).2 ⟨fun hfree => ?_, fun _ => trivial⟩⟩
  refine wp_mono (hbody.keeps _) fun _ w' hw' => ?_
  have hsame : w'.steady
      = (w.timestamp, w.registry.entered, Function.update w.guards.2 v true) :=
    hw'.trans (steady_setEntered v true w)
  have hregistry : w'.registry.entered = w.registry.entered :=
    congrArg (fun x => x.2.1) hsame
  have hvaults : w'.guards.2 = Function.update w.guards.2 v true :=
    congrArg (fun x => x.2.2) hsame
  have htime : w'.timestamp = w.timestamp := congrArg Prod.fst hsame
  rw [steady_setEntered]
  refine Prod.ext htime (Prod.ext hregistry ?_)
  show Function.update w'.guards.2 v false = w.guards.2
  rw [hvaults, Function.update_idem, Function.update_eq_self_iff]
  exact hfree.symm

instance guarded_deposit : Guarded (deposit net m v t a) := by
  unfold deposit
  infer_instance

instance guarded_withdraw : Guarded (withdraw net m v t a) := by
  unfold withdraw
  infer_instance

instance guarded_lockCollateral : Guarded (lockCollateral sender v h u t a) := by
  unfold lockCollateral
  infer_instance

instance guarded_releaseForExecution (dst : Address) :
    Guarded (releaseForExecution net sender v h t a dst) := by
  unfold releaseForExecution
  infer_instance

instance guarded_returnCollateral : Guarded (returnCollateral sender v h u t a) := by
  unfold returnCollateral
  infer_instance

instance guarded_setRegistry (x : Address) : Guarded (setRegistry m v x) := by
  have hset : Guarded (modify (World.onVault v fun V => { V with registry := x })) :=
    .modify (steady_onVault v fun _ => rfl)
  unfold setRegistry
  infer_instance

instance guarded_transferOwnership (x : Address) : Guarded (transferOwnership m v x) := by
  have hset : Guarded (modify (World.onVault v fun V => { V with owner := x })) :=
    .modify (steady_onVault v fun _ => rfl)
  unfold transferOwnership
  infer_instance

instance guarded_renounceOwnership : Guarded (renounceOwnership m v) := by
  have hset : Guarded (modify (World.onVault v fun V => { V with owner := 0 })) :=
    .modify (steady_onVault v fun _ => rfl)
  unfold renounceOwnership
  infer_instance

end CollateralVault

/-- A write to the gas vault. -/
theorem Guarded.onGasVault (f : GasVault → GasVault) : Guarded (modify (World.onGasVault f)) :=
  .modify fun _ => rfl

namespace GasVault

variable (m : Msg) (u dst sender : Address) (x : ℕ)

instance guarded_emit (e : GasVaultEvent) : Guarded (emit e) :=
  .modify fun _ => rfl

instance guarded_onlyRegistry : Guarded (onlyRegistry sender) := by
  unfold onlyRegistry
  infer_instance

instance guarded_onlyOwner : Guarded (onlyOwner sender) := by
  unfold onlyOwner
  infer_instance

instance guarded_nonReentrant {body : Contract Unit} [hbody : Guarded body] :
    Guarded (nonReentrant body) := by
  have hset : ∀ f, Guarded (modify (World.onGasVault f)) := .onGasVault
  unfold nonReentrant
  infer_instance

instance guarded_credit : Guarded (credit u x) := by
  have hset : ∀ f, Guarded (modify (World.onGasVault f)) := .onGasVault
  unfold credit addBalance
  infer_instance

instance guarded_sendValue (e : String) : Guarded (sendValue net dst x e) := by
  have hmove : Guarded (modify (World.moveEth net.gasVault dst x)) := .modify fun _ => rfl
  unfold sendValue
  infer_instance

instance guarded_deposit : Guarded (deposit net m) := by
  have hmove : Guarded (modify (World.moveEth m.sender net.gasVault m.value.val)) :=
    .modify fun _ => rfl
  unfold deposit receiveValue
  infer_instance

instance guarded_withdraw (a : U256) : Guarded (withdraw net m a) := by
  have hset : ∀ f, Guarded (modify (World.onGasVault f)) := .onGasVault
  unfold withdraw subBalance
  infer_instance

instance guarded_debit (k : Address) (h : Bytes32) : Guarded (debit net sender u k x h) := by
  have hset : ∀ f, Guarded (modify (World.onGasVault f)) := .onGasVault
  unfold debit subBalance
  infer_instance

instance guarded_setRegistry (r : Address) : Guarded (setRegistry m r) := by
  have hset : ∀ f, Guarded (modify (World.onGasVault f)) := .onGasVault
  unfold setRegistry
  infer_instance

instance guarded_transferOwnership (y : Address) : Guarded (transferOwnership m y) := by
  have hset : ∀ f, Guarded (modify (World.onGasVault f)) := .onGasVault
  unfold transferOwnership
  infer_instance

instance guarded_renounceOwnership : Guarded (renounceOwnership m) := by
  have hset : ∀ f, Guarded (modify (World.onGasVault f)) := .onGasVault
  unfold renounceOwnership
  infer_instance

end GasVault

instance UniswapV3Adapter.guarded_swap (self : Address) (p : AdapterParams)
    (tIn tOut r : Address) (a y : U256) : Guarded (swap net self p tIn tOut a y r) := by
  have happroved : Guarded (modify fun w : World =>
      { w with routerApproved := update2 w.routerApproved self tIn true }) :=
    .modify fun _ => rfl
  unfold swap forceApprove
  infer_instance

namespace CommitmentRegistry

variable (m : Msg) (h n : Bytes32) (tIn tOut : Address) (kind : CommitmentKind)

/-- A write to the registry that is not to its guard. -/
theorem guarded_onRegistry {f : CommitmentRegistry → CommitmentRegistry}
    (hf : ∀ r, (f r).entered = r.entered) : Guarded (modify (World.onRegistry f)) :=
  .modify fun w => Prod.ext rfl (Prod.ext (hf w.registry) rfl)

instance guarded_emit (e : RegistryEvent) : Guarded (emit e) :=
  .modify fun _ => rfl

instance guarded_setRecord (r : CommitmentRecord) : Guarded (setRecord h r) :=
  guarded_onRegistry fun _ => rfl

instance guarded_setStatus (st : CommitmentStatus) : Guarded (setStatus h st) := by
  unfold setStatus
  infer_instance

instance guarded_spend : Guarded (spend n) :=
  guarded_onRegistry fun _ => rfl

instance guarded_whenNotPaused : Guarded whenNotPaused := by
  unfold whenNotPaused
  infer_instance

instance guarded_onlyGuardian : Guarded (onlyGuardian m) := by
  unfold onlyGuardian
  infer_instance

/-- The guard is taken and given back. -/
instance guarded_nonReentrant {body : Contract Unit} [hbody : Guarded body] :
    Guarded (nonReentrant body) := by
  refine ⟨fun w => (wp_nonReentrant body _).2 ⟨fun hfree => ?_, fun _ => trivial⟩⟩
  refine wp_mono (hbody.keeps _) fun _ w' hw' => ?_
  have hvaults : w'.guards.2 = (w.setRegistryEntered true).guards.2 :=
    congrArg (fun x => x.2.2) hw'
  have htime : w'.timestamp = w.timestamp := congrArg Prod.fst hw'
  exact Prod.ext htime (Prod.ext hfree.symm hvaults)

instance guarded_vaultLock (u t : Address) (a : U256) : Guarded (vaultLock net h u t a) := by
  unfold vaultLock
  infer_instance

instance guarded_vaultRelease (t dst : Address) (a : U256) :
    Guarded (vaultRelease net h t a dst) := by
  unfold vaultRelease
  infer_instance

instance guarded_vaultReturn (u t : Address) (a : U256) :
    Guarded (vaultReturn net h u t a) := by
  unfold vaultReturn
  infer_instance

instance guarded_openCommitment (r : CommitmentRecord) : Guarded (openCommitment net h r) := by
  unfold openCommitment
  infer_instance

instance guarded_registerCommitment (size minOut : U256) (expiry : UInt64) :
    Guarded (registerCommitment net m h tIn tOut size minOut expiry kind) := by
  unfold registerCommitment
  infer_instance

instance guarded_registerRows (rows : List BatchRow) :
    Guarded (registerRows net m tIn tOut kind rows) := by
  induction rows with
  | nil => exact .pure ()
  | cons row rows ih =>
      unfold registerRows registerRow
      infer_instance

instance guarded_registerCommitmentBatch (hs : List Bytes32) (sizes minOuts : List U256)
    (expiries : List UInt64) :
    Guarded (registerCommitmentBatch net m hs tIn tOut sizes minOuts expiries kind) := by
  unfold registerCommitmentBatch
  infer_instance

instance guarded_adapterSwap (x y : U256) (r : Address) :
    Guarded (adapterSwap net tIn tOut x y r) := by
  have hswap : ∀ w : World, Guarded (match net.adapter w.registry.dexAdapter with
      | some a => UniswapV3Adapter.swap net w.registry.dexAdapter a tIn tOut x y r
      | none => do
          let z ← ask (.swap w.registry.dexAdapter tIn tOut x y r)
          return z.returned) := by
    intro w
    cases net.adapter w.registry.dexAdapter with
    | some a => exact UniswapV3Adapter.guarded_swap _ _ _ _ _ _ _
    | none => exact .bind
  unfold adapterSwap
  infer_instance

instance guarded_debitGas (u : Address) : Guarded (debitGas net m u h) := by
  unfold debitGas gasVaultDebit
  infer_instance

instance guarded_authorise (proof : List UInt8) (x : UInt64) :
    Guarded (authorise h n proof x) := by
  unfold authorise
  infer_instance

instance guarded_executeCommitment (proof : List UInt8) (x : UInt64) :
    Guarded (executeCommitment net m h n proof x) := by
  unfold executeCommitment
  infer_instance

instance guarded_cancelCommitment : Guarded (cancelCommitment net m h n) := by
  unfold cancelCommitment
  infer_instance

instance guarded_sweepAll (hs : List Bytes32) : Guarded (sweepAll net hs) := by
  induction hs with
  | nil => exact .pure ()
  | cons h hs ih =>
      unfold sweepAll sweepOne
      infer_instance

instance guarded_sweepExpired (hs : List Bytes32) : Guarded (sweepExpired net hs) := by
  unfold sweepExpired
  infer_instance

instance guarded_pause : Guarded (pause m) := by
  have hset : Guarded (modify (World.onRegistry fun r => { r with paused := true })) :=
    guarded_onRegistry fun _ => rfl
  unfold pause
  infer_instance

instance guarded_unpause : Guarded (unpause m) := by
  have hset : Guarded (modify (World.onRegistry fun r => { r with paused := false })) :=
    guarded_onRegistry fun _ => rfl
  unfold unpause
  infer_instance

instance guarded_setDEXAdapter (x : Address) : Guarded (setDEXAdapter m x) := by
  have hset : Guarded (modify (World.onRegistry fun r => { r with dexAdapter := x })) :=
    guarded_onRegistry fun _ => rfl
  unfold setDEXAdapter
  infer_instance

instance guarded_setGasVault (x : Address) : Guarded (setGasVault m x) := by
  have hset : Guarded (modify (World.onRegistry fun r => { r with gasVault := x })) :=
    guarded_onRegistry fun _ => rfl
  unfold setGasVault
  infer_instance

instance guarded_setCollateralVault (x : Address) : Guarded (setCollateralVault m x) := by
  have hset : Guarded (modify (World.onRegistry fun r => { r with vault := x })) :=
    guarded_onRegistry fun _ => rfl
  unfold setCollateralVault
  infer_instance

instance guarded_setGuardian (x : Address) : Guarded (setGuardian m x) := by
  have hset : Guarded (modify (World.onRegistry fun r => { r with guardian := x })) :=
    guarded_onRegistry fun _ => rfl
  unfold setGuardian
  infer_instance

instance guarded_setPriceFeed (x y : Address) : Guarded (setPriceFeed m x y) := by
  have hset : Guarded (modify (World.onRegistry fun r =>
      { r with priceFeeds := Function.update r.priceFeeds x y })) :=
    guarded_onRegistry fun _ => rfl
  unfold setPriceFeed
  infer_instance

instance guarded_setOracleStaleness (x : U256) : Guarded (setOracleStaleness m x) := by
  have hset : Guarded (modify (World.onRegistry fun r => { r with oracleStaleness := x })) :=
    guarded_onRegistry fun _ => rfl
  unfold setOracleStaleness
  infer_instance

instance guarded_setVerifier (k : UInt8) (x : Address) : Guarded (setVerifier m k x) := by
  have hset : Guarded (modify (World.onRegistry fun r =>
      { r with verifiers := Function.update r.verifiers k x })) :=
    guarded_onRegistry fun _ => rfl
  unfold setVerifier
  infer_instance

end CommitmentRegistry

-- =================================================================== the chain

instance guarded_nonpayable (m : Msg) {body : Contract Unit} [hbody : Guarded body] :
    Guarded (nonpayable m body) := by
  unfold nonpayable
  infer_instance

theorem guarded_dispatch (m : Msg) (call : Call) : Guarded (dispatch net m call) := by
  cases call with
  | gasDeposit => exact GasVault.guarded_deposit m
  | gasReceive => exact GasVault.guarded_deposit m
  | adapterSwap x tIn tOut amountIn minOut recipient =>
      rw [dispatch]
      cases net.adapter x with
      | none => exact ⟨fun _ => trivial⟩
      | some a => apply guarded_nonpayable
  | _ => exact guarded_nonpayable m

theorem guarded_entry (i : Msg × Call) : Guarded (entry net i) := by
  have hcall : Guarded (dispatch net i.1 i.2) := guarded_dispatch i.1 i.2
  have hreceipt : Guarded (receipt i.1 i.2) := .modify fun _ => rfl
  unfold entry
  infer_instance

theorem steady_outside {e : Outside} {w w' : World} (hidle : e.idle = false)
    (he : e.effect net w = some w') : w'.steady = w.steady := by
  cases e with
  | externals x => cases he; rfl
  | tick x => cases hidle
  | transfer | mint | payEth =>
      simp only [Outside.effect] at he
      split at he
      · cases he; rfl
      · nomatch he

/-- From one point between transactions to another the clock does not go
back and the guards are as they were. -/
theorem steady_run {w w' : World} {P : World → ChainMove → Prop}
    (hrun : (chain net).Run P ⟨w, []⟩ ⟨w', []⟩) :
    w.timestamp ≤ w'.timestamp ∧ w'.guards = w.guards := by
  have hup : w.steady.1 ≤ w'.steady.1 ∧ w'.steady.2 = w.steady.2 := by
    refine hrun.keeps_up (R := fun x y => x.1 ≤ y.1 ∧ y.2 = x.2) ?_ ?_ guarded_entry
      (fun e s s' => steady_outside) ?_
    · exact fun x => ⟨le_refl _, rfl⟩
    · exact fun x y z hxy hyz => ⟨hxy.1.trans hyz.1, hyz.2.trans hxy.2⟩
    · intro e s s' hidle he
      cases e with
      | tick x =>
          cases he
          exact ⟨Nat.le_add_right _ _, rfl⟩
      | _ => cases hidle
  exact hup

/-- Between transactions no guard of a deployment is taken. -/
theorem guards_free {w w' : World} (hd : Deployed w) {P : World → ChainMove → Prop}
    (hrun : (chain net).Run P ⟨w, []⟩ ⟨w', []⟩) :
    w'.registry.entered = false ∧ ∀ v, (w'.vaults v).entered = false := by
  obtain ⟨-, hkeeps⟩ := steady_run hrun
  have hreg : w.registry.entered = false := by
    obtain ⟨g, v, x, u, hr⟩ := hd.registry
    unfold CommitmentRegistry.constructor at hr
    split_ifs at hr
    injection hr with hr
    rw [← hr]
  refine ⟨(congrArg Prod.fst hkeeps).trans hreg, fun v => ?_⟩
  exact (congrFun (congrArg Prod.snd hkeeps) v).trans (hd.vaultEntered v)

end Zstrategy.Contracts
