/-
How the chain writes the gas book. `GasTrans d s w` says that the acts
from `s` to `w` left what the new receipts show, and `d` on top.

Most functions write nothing of the gas side: they are found to frame it.
What is left is the gas vault, the functions that write a commitment
record, and the two ends of the wire between the registry and the vault.

The first half is frames: the vaults, the adapter and most of the registry's
setters never touch what the gas side reads, and the instances say so one
function at a time. The second half follows the few functions that do, with
the rules `act`, `silent`, `ask` and `frame`, as Custody/Tracking does for
the custody book.
-/
import Zstrategy.Contracts.Apart
import Zstrategy.Contracts.Rules
import Zstrategy.Gas.Book

namespace Zstrategy.Contracts

open Lib Code

open Function (update)

variable {net : Net} {free : Prop}

-- ============================================================ the gas side

def World.gasBook (w : World) : GasBook :=
  ⟨w.gasVault.balanceOf, w.eth, w.registry.commitments⟩

/-- The gas book, and the calls that returned. -/
def World.gasSide (w : World) : GasBook × List Receipt := (w.gasBook, w.receipts)

/-- The gas vault the registry debits, and the registry it obeys. -/
def World.gasWire (w : World) : Address × Address :=
  (w.registry.gasVault, w.gasVault.registry)

/-- All that the gas side reads. -/
def World.gasView (w : World) : (GasBook × List Receipt) × (Address × Address) :=
  (w.gasSide, w.gasWire)

/-- The registry and the gas vault point to each other. -/
def GasWired (net : Net) (w : World) : Prop :=
  w.gasWire = (net.gasVault, net.registry)

/-- What a returned call shows of the gas book. -/
def Call.gasShows (sender : Address) : Call → Multiset GasItem
  | .gasDeposit => {.deposit sender}
  | .gasReceive => {.deposit sender}
  | .gasWithdraw a => {.withdraw sender a.val}
  | .executeCommitment h _ _ _ => {.executed h sender, .settled h sender}
  | _ => 0

def Receipt.gasShows (r : Receipt) : Multiset GasItem := r.call.gasShows r.sender

def GasTrans (net : Net) (free : Prop) (d : Multiset GasItem) (s w : World) : Prop :=
  (gasLedger net free).Between Receipt.gasShows d s.gasSide w.gasSide

/-- From `o` on, everything settled was started. -/
def GasTracks (net : Net) (free : Prop) (o w : World) : Prop :=
  GasWired net w ∧ ∃ d, Balanced d ∧ GasTrans net free d o w

def gasRely (net : Net) (free : Prop) (o : World) : Rely World Request Reply :=
  (chain net).rely (GasTracks net free o) (GasTrans net free 0)

variable {o s w w' : World} {d : Multiset GasItem}

/-- A check that may fail: the failing side owes nothing. -/
theorem gas_check {p q : Prop} {e : String} (h : p → q) :
    (p → q) ∧ (¬p → (gasRely net free o).err e) :=
  ⟨h, fun _ => trivial⟩

/-- A point in a call that started in `s`. -/
structure GasAt (net : Net) (free : Prop) (s : World) (d : Multiset GasItem) (w : World) :
    Prop where
  wired : GasWired net w
  trans : GasTrans net free d s w

namespace GasAt

/-- A write elsewhere. -/
theorem same (h : GasAt net free s d w) (hv : w'.gasView = w.gasView) : GasAt net free s d w' := by
  obtain ⟨hside, hwire⟩ := Prod.ext_iff.1 hv
  refine ⟨?_, ?_⟩
  · exact hwire.trans h.wired
  · have htrans := h.trans
    unfold GasTrans at htrans ⊢
    rwa [show w'.gasSide = w.gasSide from hside]

/-- One act. -/
theorem act (h : GasAt net free s d w) (a : GasAct) (hg : a.guard net free w.gasBook)
    (hb : w'.gasBook = a.effect net w.gasBook) (hr : w'.receipts = w.receipts)
    (hw : w'.gasWire = w.gasWire) : GasAt net free s (d + a.incurs) w' := by
  refine ⟨hw.trans h.wired, ?_⟩
  have hact := h.trans.act a hg
  unfold GasTrans World.gasSide
  rw [hb, hr]
  exact hact

/-- An act that leaves nothing to show. -/
theorem silent (h : GasAt net free s d w) (a : GasAct) (hg : a.guard net free w.gasBook)
    (ha : a.incurs = 0) (hb : w'.gasBook = a.effect net w.gasBook)
    (hr : w'.receipts = w.receipts) (hw : w'.gasWire = w.gasWire) : GasAt net free s d w' := by
  have hact := h.act a hg hb hr hw
  rwa [ha, add_zero] at hact

theorem tracks (h : GasAt net free s d w) (hs : GasTracks net free o s) (hd : Balanced d) :
    GasTracks net free o w := by
  obtain ⟨-, d', hd', hs⟩ := hs
  exact ⟨h.wired, d' + d, hd'.add hd, hs.trans h.trans⟩

/-- A call that leaves and comes back. -/
theorem ask (h : GasAt net free s d w) (hs : GasTracks net free o s) (hd : Balanced d)
    {req : Request} {Q : Reply → World → Prop}
    (hQ : ∀ x w', GasAt net free s d w' → GasTrans net free 0 w w' → Q x w') :
    Asks (gasRely net free o) req Q w := by
  refine ⟨h.tracks hs hd, ?_⟩
  intro w' x htracks hrel _
  exact hQ x w' ⟨htracks.1, h.trans.after hrel⟩ hrel

/-- A program that writes nothing of the gas side. -/
theorem frame {α : Type} {c : Contract α} [hc : c.Frames World.gasView]
    (h : GasAt net free s d w) (hs : GasTracks net free o s) (hd : Balanced d) :
    c.wp (gasRely net free o) (fun _ w' => GasAt net free s d w' ∧ GasTrans net free 0 w w') w := by
  have hsat := (hc.frames w).sat
    (I := fun v => v.2 = (net.gasVault, net.registry)
      ∧ ∃ d, Balanced d ∧ (gasLedger net free).Between Receipt.gasShows d o.gasSide v.1)
    (R := fun v v' => (gasLedger net free).Between Receipt.gasShows 0 v.1 v'.1)
    (y := w.gasView) (fun _ _ _ h h' => h.after h') (.refl _)
    (h.tracks hs hd)
  have hweak : c.wp (gasRely net free o) _ w := hsat.weaken (fun _ => id)
    (fun _ _ _ hi hr => ⟨hi, hr⟩) (fun _ _ _ => trivial) fun _ => id
  refine wp_mono hweak ?_
  intro _ w' hw'
  obtain ⟨hi, hr⟩ := hw'
  exact ⟨⟨hi.1, h.trans.after hr⟩, hr⟩

end GasAt

-- ================================================== what the gas side ignores

instance gasView_onVault (v : Address) (g : CollateralVault → CollateralVault) :
    (modify (World.onVault v g) : Contract Unit).Frames World.gasView :=
  .modify fun _ => rfl

instance gasView_moveToken (t src dst : Address) (x : ℕ) :
    (modify (World.moveToken t src dst x) : Contract Unit).Frames World.gasView :=
  .modify fun _ => rfl

instance gasView_emit (e : Event) :
    (modify (World.emit e) : Contract Unit).Frames World.gasView :=
  .modify fun _ => rfl

section Ignored

variable (m : Msg) (v u t sender dst : Address) (h : Bytes32) (a : U256)

namespace CollateralVault

instance gasView_deposit : (deposit net m v t a).Frames World.gasView := by
  unfold deposit nonReentrant safeTransferFrom standardMove addFree emit
  infer_instance

instance gasView_withdraw : (withdraw net m v t a).Frames World.gasView := by
  unfold withdraw nonReentrant safeTransfer standardMove subFree emit
  infer_instance

instance gasView_lockCollateral :
    (lockCollateral sender v h u t a).Frames World.gasView := by
  unfold lockCollateral onlyRegistry subFree addLocked emit
  infer_instance

instance gasView_releaseForExecution :
    (releaseForExecution net sender v h t a dst).Frames World.gasView := by
  unfold releaseForExecution onlyRegistry subLocked safeTransfer standardMove emit
  infer_instance

instance gasView_returnCollateral :
    (returnCollateral sender v h u t a).Frames World.gasView := by
  unfold returnCollateral onlyRegistry subLocked addFree emit
  infer_instance

instance gasView_setRegistry (x : Address) : (setRegistry m v x).Frames World.gasView := by
  unfold setRegistry onlyOwner emit
  infer_instance

instance gasView_transferOwnership (x : Address) :
    (transferOwnership m v x).Frames World.gasView := by
  unfold transferOwnership onlyOwner
  infer_instance

instance gasView_renounceOwnership : (renounceOwnership m v).Frames World.gasView := by
  unfold renounceOwnership onlyOwner
  infer_instance

end CollateralVault

instance UniswapV3Adapter.gasView_swap (self : Address) (p : AdapterParams)
    (tIn tOut r : Address) (x y : U256) :
    (swap net self p tIn tOut x y r).Frames World.gasView := by
  have happroved : (modify fun w : World =>
      { w with routerApproved := update2 w.routerApproved self tIn true }
      : Contract Unit).Frames World.gasView := .modify fun _ => rfl
  unfold swap forceApprove
  infer_instance

namespace CommitmentRegistry

instance gasView_vaultLock : (vaultLock net h u t a).Frames World.gasView := by
  unfold vaultLock
  infer_instance

instance gasView_vaultRelease : (vaultRelease net h t a dst).Frames World.gasView := by
  unfold vaultRelease
  infer_instance

instance gasView_vaultReturn : (vaultReturn net h u t a).Frames World.gasView := by
  unfold vaultReturn
  infer_instance

instance gasView_adapterSwap (tIn tOut r : Address) (x y : U256) :
    (adapterSwap net tIn tOut x y r).Frames World.gasView := by
  have hswap : ∀ w : World, (match net.adapter w.registry.dexAdapter with
      | some p => UniswapV3Adapter.swap net w.registry.dexAdapter p tIn tOut x y r
      | none => do
          let z ← ask (.swap w.registry.dexAdapter tIn tOut x y r)
          return z.returned : Contract U256).Frames World.gasView := by
    intro w
    cases net.adapter w.registry.dexAdapter with
    | some p => exact UniswapV3Adapter.gasView_swap _ _ _ _ _ _ _
    | none => exact .bind
  unfold adapterSwap
  infer_instance

/-- A setter of the guardian that writes another field. -/
theorem gasView_onRegistry {g : CommitmentRegistry → CommitmentRegistry}
    (hg : ∀ r, (g r).gasVault = r.gasVault ∧ (g r).commitments = r.commitments) :
    (modify (World.onRegistry g) : Contract Unit).Frames World.gasView := by
  refine .modify fun w => ?_
  obtain ⟨hvault, hrec⟩ := hg w.registry
  unfold World.gasView World.gasSide World.gasBook World.gasWire World.onRegistry
  rw [hvault, hrec]

instance gasView_pause : (pause m).Frames World.gasView := by
  have hset := gasView_onRegistry (g := fun r => { r with paused := true })
    fun _ => ⟨rfl, rfl⟩
  unfold pause onlyGuardian emit
  infer_instance

instance gasView_unpause : (unpause m).Frames World.gasView := by
  have hset := gasView_onRegistry (g := fun r => { r with paused := false })
    fun _ => ⟨rfl, rfl⟩
  unfold unpause onlyGuardian emit
  infer_instance

instance gasView_setDEXAdapter (x : Address) : (setDEXAdapter m x).Frames World.gasView := by
  have hset := gasView_onRegistry (g := fun r => { r with dexAdapter := x })
    fun _ => ⟨rfl, rfl⟩
  unfold setDEXAdapter onlyGuardian emit
  infer_instance

instance gasView_setCollateralVault (x : Address) :
    (setCollateralVault m x).Frames World.gasView := by
  have hset := gasView_onRegistry (g := fun r => { r with vault := x })
    fun _ => ⟨rfl, rfl⟩
  unfold setCollateralVault onlyGuardian emit
  infer_instance

instance gasView_setGuardian (x : Address) : (setGuardian m x).Frames World.gasView := by
  have hset := gasView_onRegistry (g := fun r => { r with guardian := x })
    fun _ => ⟨rfl, rfl⟩
  unfold setGuardian onlyGuardian
  infer_instance

instance gasView_setPriceFeed (x y : Address) : (setPriceFeed m x y).Frames World.gasView := by
  have hset := gasView_onRegistry
    (g := fun r => { r with priceFeeds := update r.priceFeeds x y }) fun _ => ⟨rfl, rfl⟩
  unfold setPriceFeed onlyGuardian emit
  infer_instance

instance gasView_setOracleStaleness (x : U256) :
    (setOracleStaleness m x).Frames World.gasView := by
  have hset := gasView_onRegistry (g := fun r => { r with oracleStaleness := x })
    fun _ => ⟨rfl, rfl⟩
  unfold setOracleStaleness onlyGuardian emit
  infer_instance

instance gasView_setVerifier (k : UInt8) (x : Address) :
    (setVerifier m k x).Frames World.gasView := by
  have hset := gasView_onRegistry
    (g := fun r => { r with verifiers := update r.verifiers k x }) fun _ => ⟨rfl, rfl⟩
  unfold setVerifier onlyGuardian emit
  infer_instance

end CommitmentRegistry

end Ignored

-- =============================================================== the gas vault

namespace GasVault

variable {m : Msg} {u k dst sender : Address} {x : ℕ} {c : Bytes32}

instance gasView_transferOwnership (y : Address) :
    (transferOwnership m y).Frames World.gasView := by
  have hset : (modify (World.onGasVault fun g => { g with owner := y })
      : Contract Unit).Frames World.gasView := .modify fun _ => rfl
  unfold transferOwnership onlyOwner
  infer_instance

instance gasView_renounceOwnership : (renounceOwnership m).Frames World.gasView := by
  have hset : (modify (World.onGasVault fun g => { g with owner := 0 })
      : Contract Unit).Frames World.gasView := .modify fun _ => rfl
  unfold renounceOwnership onlyOwner
  infer_instance

theorem nonReentrant_gas {body : Contract Unit} {d' : Multiset GasItem}
    (h : GasAt net free s d w)
    (hbody : ∀ w', w'.gasView = w.gasView → GasAt net free s d w' →
      body.wp (gasRely net free o) (fun _ w'' => GasAt net free s d' w'') w') :
    (nonReentrant body).wp (gasRely net free o) (fun _ w' => GasAt net free s d' w') w := by
  rw [wp_nonReentrant]
  refine gas_check fun _ => ?_
  refine wp_mono (hbody _ rfl (h.same rfl)) ?_
  intro _ w'' h''
  exact h''.same rfl

/-- The receiver's code runs when the act is complete. -/
theorem sendValue_gas {e : String} (hdst : dst ≠ net.gasVault) (hs : GasTracks net free o s)
    (hd : Balanced d)
    (h : x ≤ w.eth net.gasVault → GasAt net free s d (w.moveEth net.gasVault dst x)) :
    (sendValue net dst x e).wp (gasRely net free o) (fun _ w' => GasAt net free s d w') w := by
  unfold sendValue
  simp only [wp_bind, wp_read, wp_require, wp_modify, wp_ite, wp_ask_iff, wp_pure]
  refine gas_check fun hle => ⟨fun hself => absurd hself hdst, fun _ => ?_⟩
  exact (h hle).ask hs hd fun _ w' h' _ => h'

theorem deposit_gas (hm : m.sender ≠ net.gasVault) (h : GasAt net free s d w) :
    (deposit net m).wp (gasRely net free o)
      (fun _ w' => GasAt net free s (d + {.deposit m.sender}) w') w := by
  unfold deposit receiveValue credit
  simp only [wp_bind, wp_read, wp_require, wp_modify, wp_addBalance, wp_emit]
  refine gas_check fun hvalue => gas_check fun hpos => gas_check fun _ => ?_
  have hact : GasAt net free s (d + {.deposit m.sender})
      ((w.moveEth m.sender net.gasVault m.value.val).setGas m.sender
        (w.gasVault.balanceOf m.sender + m.value.val)) :=
    h.act (.deposit m.sender m.value.val) ⟨hm, hpos, hvalue⟩ rfl rfl rfl
  exact hact.same rfl

theorem withdraw_gas {a : U256} (hm : m.sender ≠ net.gasVault) (hs : GasTracks net free o s)
    (hd : Balanced d) (h : GasAt net free s d w) :
    (withdraw net m a).wp (gasRely net free o)
      (fun _ w' => GasAt net free s (d + {.withdraw m.sender a.val}) w') w := by
  unfold withdraw
  refine nonReentrant_gas h fun w _ h => ?_
  simp only [wp_bind, wp_require, wp_read, wp_subBalance, wp_emit]
  refine gas_check fun hpos => gas_check fun hle => gas_check fun _ => ?_
  have hd' : Balanced (d + {.withdraw m.sender a.val}) := hd.add (balanced_singleton rfl)
  refine wp_mono (sendValue_gas hm hs hd' fun heth => ?_) fun _ w' h' => h'.same rfl
  exact h.act (.withdraw m.sender a.val) ⟨hm, hpos, hle, heth⟩ rfl rfl rfl

/-- The registry's debit of an execution under way. -/
theorem debit_gas (hk : k ≠ net.gasVault) (hku : k ≠ u) (hs : GasTracks net free o s)
    (hd : Balanced (d + {.settled c k})) (h : GasAt net free s d w)
    (hx : w.gasBook.Executed c u) :
    (debit net sender u k x c).wp (gasRely net free o)
      (fun _ w' => GasAt net free s (d + {.settled c k}) w') w := by
  unfold debit
  rw [wp_bind, wp_onlyRegistry]
  refine gas_check fun _ => nonReentrant_gas h fun w₁ hv h => ?_
  simp only [wp_bind, wp_require, wp_read, wp_subBalance, wp_emit]
  refine gas_check fun hle => gas_check fun _ => ?_
  refine wp_mono (sendValue_gas hk hs hd fun heth => ?_) fun _ w' h' => h'.same rfl
  have hbook : w₁.gasBook = w.gasBook := congrArg (fun v => v.1.1) hv
  rw [← hbook] at hx
  exact h.act (.debit u k x c) ⟨hk, hku, hx, hle, heth⟩ rfl rfl rfl

/-- Nobody else can debit. -/
theorem foreign_debit_gas {Q : Unit → World → Prop} (hsender : sender ≠ net.registry)
    (hw : GasWired net w) : (debit net sender u k x c).wp (gasRely net free o) Q w := by
  unfold debit
  rw [wp_bind, wp_onlyRegistry]
  refine gas_check fun hreg => ?_
  have hwire : w.gasVault.registry = net.registry := congrArg Prod.snd hw
  rw [hwire] at hreg
  exact absurd hreg hsender

theorem setRegistry_gas (h : GasAt net free s d w) :
    (setRegistry m net.registry).wp (gasRely net free o) (fun _ w' => GasAt net free s d w') w := by
  unfold setRegistry
  simp only [wp_bind, wp_onlyOwner, wp_require, wp_read, wp_emit, wp_modify]
  refine gas_check fun _ => gas_check fun _ => h.same ?_
  have hwire : w.gasVault.registry = net.registry := congrArg Prod.snd h.wired
  show (w.gasSide, (w.registry.gasVault, net.registry)) = _
  rw [← hwire]
  rfl

end GasVault

-- ================================================================ the registry

namespace CommitmentRegistry

variable {m : Msg} {h n : Bytes32} {tIn tOut : Address} {r : CommitmentRecord}
variable {size minOut : U256} {expiry : UInt64} {kind : CommitmentKind}

theorem nonReentrant_gas {body : Contract Unit} {d' : Multiset GasItem}
    (hw : GasAt net free s d w)
    (hbody : ∀ w', w'.gasView = w.gasView → GasAt net free s d w' →
      body.wp (gasRely net free o) (fun _ w'' => GasAt net free s d' w'') w') :
    (nonReentrant body).wp (gasRely net free o) (fun _ w' => GasAt net free s d' w') w := by
  rw [wp_nonReentrant]
  refine gas_check fun _ => ?_
  refine wp_mono (hbody _ rfl (hw.same rfl)) ?_
  intro _ w'' h''
  exact h''.same rfl

theorem openCommitment_gas (hs : GasTracks net free o s) (hd : Balanced d)
    (hw : GasAt net free s d w)
    (hnone : (w.registry.commitments h).status = .NONE) (hpend : r.status = .PENDING) :
    (openCommitment net h r).wp (gasRely net free o) (fun _ w' => GasAt net free s d w') w := by
  unfold openCommitment
  simp only [wp_bind, wp_setRecord, wp_emit]
  have hact : GasAt net free s d (w.setRecord h r) :=
    hw.silent (.register h r) ⟨hnone, hpend⟩ rfl rfl rfl rfl
  refine wp_mono (hact.frame hs hd) ?_
  intro _ w' hw'
  exact hw'.1.same rfl

theorem registerCommitment_gas (hs : GasTracks net free o s) (hd : Balanced d)
    (hw : GasAt net free s d w) :
    (registerCommitment net m h tIn tOut size minOut expiry kind).wp (gasRely net free o)
      (fun _ w' => GasAt net free s d w') w := by
  unfold registerCommitment
  refine nonReentrant_gas hw fun w _ hw => ?_
  simp only [wp_bind, wp_whenNotPaused, wp_read, wp_require]
  refine gas_check fun _ => gas_check fun _ => gas_check fun _ => gas_check fun _ =>
    gas_check fun _ => gas_check fun _ => gas_check fun _ => gas_check fun _ =>
    gas_check fun hnone => ?_
  exact openCommitment_gas hs hd hw hnone rfl

theorem registerRows_gas {rows : List BatchRow} (hs : GasTracks net free o s) (hd : Balanced d)
    (hw : GasAt net free s d w) :
    (registerRows net m tIn tOut kind rows).wp (gasRely net free o)
      (fun _ w' => GasAt net free s d w') w := by
  induction rows generalizing w with
  | nil => exact hw
  | cons row rows ih =>
      obtain ⟨h, size, minOut, expiry⟩ := row
      rw [registerRows, wp_bind]
      unfold registerRow
      simp only [wp_bind, wp_read, wp_require]
      refine gas_check fun _ => gas_check fun _ => gas_check fun _ => gas_check fun hnone => ?_
      exact wp_mono (openCommitment_gas hs hd hw hnone rfl) fun _ w' hw' => ih hw'

theorem registerCommitmentBatch_gas {hs : List Bytes32} {sizes minOuts : List U256}
    {expiries : List UInt64} (ho : GasTracks net free o s) (hd : Balanced d)
    (hw : GasAt net free s d w) :
    (registerCommitmentBatch net m hs tIn tOut sizes minOuts expiries kind).wp
      (gasRely net free o) (fun _ w' => GasAt net free s d w') w := by
  unfold registerCommitmentBatch
  refine nonReentrant_gas hw fun w _ hw => ?_
  simp only [wp_bind, wp_whenNotPaused, wp_read, wp_require]
  refine gas_check fun _ => gas_check fun _ => gas_check fun _ => gas_check fun _ =>
    gas_check fun _ => gas_check fun _ => gas_check fun _ => gas_check fun _ =>
    gas_check fun _ => ?_
  exact registerRows_gas ho hd hw

/-- An exit other than an execution, from the status write on. -/
theorem close_gas {st : CommitmentStatus} {u t : Address} {a : U256}
    (hs : GasTracks net free o s) (hd : Balanced d) (hw : GasAt net free s d w)
    (hpend : (w.registry.commitments h).status = .PENDING)
    (hst : st = .CANCELLED ∨ st = .EXPIRED) :
    (vaultReturn net h u t a).wp (gasRely net free o) (fun _ w' => GasAt net free s d w')
      (w.setRecord h ((w.registry.commitments h).close st)) := by
  have hact : GasAt net free s d (w.setRecord h ((w.registry.commitments h).close st)) :=
    hw.silent (.close h st) ⟨hpend, hst⟩ rfl rfl rfl rfl
  refine wp_mono (hact.frame hs hd) ?_
  intro _ w' hw'
  exact hw'.1

theorem cancelCommitment_gas (hs : GasTracks net free o s) (hd : Balanced d)
    (hw : GasAt net free s d w) :
    (cancelCommitment net m h n).wp (gasRely net free o) (fun _ w' => GasAt net free s d w') w := by
  unfold cancelCommitment
  refine nonReentrant_gas hw fun w _ hw => ?_
  simp only [wp_bind, wp_read, wp_require, wp_spend, wp_setStatus, wp_emit]
  refine gas_check fun _ => gas_check fun hpend => gas_check fun _ => ?_
  have hspent : GasAt net free s d (w.spend n) := hw.same rfl
  refine wp_mono (close_gas hs hd hspent hpend (Or.inl rfl)) ?_
  intro _ w' hw'
  exact hw'.same rfl

theorem sweepAll_gas {hs : List Bytes32} (ho : GasTracks net free o s) (hd : Balanced d)
    (hw : GasAt net free s d w) :
    (sweepAll net hs).wp (gasRely net free o) (fun _ w' => GasAt net free s d w') w := by
  induction hs generalizing w with
  | nil => exact hw
  | cons h hs ih =>
      rw [sweepAll, wp_bind]
      unfold sweepOne
      simp only [wp_bind, wp_read, wp_ite, wp_setStatus, wp_pure, wp_emit]
      refine ⟨fun hdue => ?_, fun _ => ih hw⟩
      refine wp_mono (close_gas ho hd hw hdue.1 (Or.inr rfl)) ?_
      intro _ w' hw'
      exact ih (hw'.same rfl)

/-- The end of an execution. -/
theorem debitGas_gas (hm : m.sender ≠ net.gasVault) (hs : GasTracks net free o s)
    (hd : Balanced (d + {.settled h m.sender})) {u : Address} (hw : GasAt net free s d w)
    (hx : w.gasBook.Executed h u) :
    (debitGas net m u h).wp (gasRely net free o)
      (fun _ w' => GasAt net free s (d + {.settled h m.sender}) w') w := by
  unfold debitGas
  rw [wp_ite]
  refine ⟨fun howner => ?_, fun hother => ?_⟩
  · rw [← howner] at hx
    exact hw.act (.waive m.sender h) hx rfl rfl rfl
  · unfold gasVaultDebit
    simp only [wp_bind, wp_checkedMul, wp_read, wp_ite]
    refine gas_check fun _ => gas_check fun _ => ⟨fun _ => ?_, fun hforeign => ?_⟩
    · exact GasVault.debit_gas hm hother hs hd hw hx
    · have hwire : w.registry.gasVault = net.gasVault := congrArg Prod.fst hw.wired
      exact absurd hwire hforeign

theorem executeCommitment_gas {proof : List UInt8} {fillRef : UInt64}
    (hm : m.sender ≠ net.gasVault) (hs : GasTracks net free o s) (hw : GasAt net free s 0 w) :
    (executeCommitment net m h n proof fillRef).wp (gasRely net free o)
      (fun _ w' => GasAt net free s {.executed h m.sender, .settled h m.sender} w') w := by
  unfold executeCommitment
  refine nonReentrant_gas hw fun w _ hw => ?_
  simp only [wp_bind, wp_whenNotPaused]
  refine gas_check fun _ => wp_authorise (fun _ => trivial) fun y hy => ?_
  simp only [wp_spend, wp_setStatus, wp_read, wp_emit]
  have hspent : GasAt net free s 0 (w.spend n) := hw.same rfl
  have hexec : GasAt net free s (0 + {.executed h m.sender}) ((w.spend n).setRecord h
      ((w.registry.commitments h).close .EXECUTED)) :=
    hspent.act (.execute h m.sender) hy.pending rfl rfl rfl
  rw [zero_add] at hexec
  refine wp_mono (hexec.frame hs (balanced_executed h m.sender)) fun _ w₁ h₁ => ?_
  refine wp_mono (h₁.1.frame hs (balanced_executed h m.sender)) fun _ w₂ h₂ => ?_
  -- the record was closed before control left, and closed records stay
  have hclosed := GasAct.execute_executed net w.gasBook h m.sender
  obtain ⟨as, rs, hpath, -, -⟩ := h₁.2.after h₂.2
  have hx : w₂.gasBook.Executed h (w₂.registry.commitments h).owner :=
    ⟨(stays_executed hpath hclosed).1, rfl⟩
  refine wp_mono (debitGas_gas hm hs (balanced_settled h m.sender) h₂.1 hx) ?_
  intro _ w₃ h₃
  exact h₃.same rfl

theorem setGasVault_gas (hw : GasAt net free s d w) :
    (setGasVault m net.gasVault).wp (gasRely net free o) (fun _ w' => GasAt net free s d w') w := by
  unfold setGasVault
  simp only [wp_bind, wp_onlyGuardian, wp_require, wp_read, wp_emit, wp_modify]
  refine gas_check fun _ => gas_check fun _ => hw.same ?_
  have hwire : w.registry.gasVault = net.gasVault := congrArg Prod.fst hw.wired
  show (w.gasSide, (net.gasVault, w.gasVault.registry)) = _
  rw [← hwire]
  rfl

end CommitmentRegistry

end Zstrategy.Contracts
