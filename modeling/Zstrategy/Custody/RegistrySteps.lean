/-
The registry's functions on the book. Registration is one act per hash;
an exit is one act that starts at the status write and ends in the vault,
with no control leaving in between when the vault is ours. With a foreign
vault the act is complete before the call to it.

Every lemma has one shape, `f_trans`: started where the acts so far are `d`,
the function ends, or hands over control, where they are `d` and its own.
The small functions add nothing and are there to be composed; `hok` is the
rule that is left to the caller, that this act is one the surrounding world
allows.
-/
import Zstrategy.Custody.VaultSteps

namespace Zstrategy.Contracts

open Lib Code

variable {net : Net} {ok : Act → Prop} {o : World} {d d' : Multiset Item}
variable {s w : World}

-- ======================================================== neutral gas vault

namespace GasVault

/-- The lock of the gas vault is not in the book. -/
theorem nonReentrant_trans {body : Contract Unit} (h : Trans net ok d s w)
    (hbody : ∀ w', Trans net ok d s w' →
      body.wp (bookRely net ok o) (fun _ w'' => Trans net ok d s w'') w') :
    (nonReentrant body).wp (bookRely net ok o)
      (fun _ w' => Trans net ok d s w') w := by
  rw [wp_nonReentrant]
  refine check fun _ => wp_mono (hbody _ (h.same rfl rfl rfl)) ?_
  exact fun _ w'' h'' => h''.same rfl rfl rfl

/-- Nor is a deposit of gas. -/
theorem credit_trans {u : Address} {x : ℕ} (h : Trans net ok d s w) :
    (credit u x).wp (bookRely net ok o) (fun _ w' => Trans net ok d s w') w := by
  unfold credit
  simp only [wp_bind, wp_require, wp_addBalance, wp_emit]
  refine check fun _ => check fun _ => .note (h.same rfl rfl rfl) rfl

/-- ETH is sent; the receiver's acts are its own. -/
theorem sendValue_trans {dst : Address} {x : ℕ} {e : String}
    (hb : Tracks net ok o s) (h : Trans net ok d s w) :
    (sendValue net dst x e).wp (bookRely net ok o)
      (fun _ w' => Trans net ok d s w') w := by
  unfold sendValue
  simp only [wp_bind, wp_read, wp_require, wp_modify, wp_ite, wp_ask_iff, wp_pure]
  have h' : Trans net ok d s (w.moveEth net.gasVault dst x) := h.same rfl rfl rfl
  exact check fun _ => ⟨fun _ => credit_trans h', fun _ => h'.ask hb fun _ _ h => h⟩

/-- `GasVault.deposit`. -/
theorem deposit_trans {m : Msg} (h : Trans net ok d s w) :
    (deposit net m).wp (bookRely net ok o)
      (fun _ w' => Trans net ok d s w') w := by
  unfold deposit receiveValue
  simp only [wp_bind, wp_read, wp_require, wp_modify]
  exact check fun _ => credit_trans (h.same rfl rfl rfl)

/-- `GasVault.withdraw`. -/
theorem withdraw_trans {m : Msg} {a : U256} (hb : Tracks net ok o s)
    (h : Trans net ok d s w) :
    (withdraw net m a).wp (bookRely net ok o)
      (fun _ w' => Trans net ok d s w') w := by
  unfold withdraw
  refine nonReentrant_trans h fun w h => ?_
  simp only [wp_bind, wp_require, wp_read, wp_subBalance, wp_emit]
  refine check fun _ => check fun _ => check fun _ => ?_
  exact wp_mono (sendValue_trans hb (h.same rfl rfl rfl)) fun _ _ h' => h'.note rfl

/-- `GasVault.debit`. -/
theorem debit_trans {sender u k : Address} {x : ℕ} {h : Bytes32}
    (hb : Tracks net ok o s) (hw : Trans net ok d s w) :
    (debit net sender u k x h).wp (bookRely net ok o)
      (fun _ w' => Trans net ok d s w') w := by
  unfold debit
  simp only [wp_bind, wp_onlyRegistry]
  refine check fun _ => nonReentrant_trans hw fun w hw => ?_
  simp only [wp_bind, wp_require, wp_read, wp_subBalance, wp_emit]
  refine check fun _ => check fun _ => ?_
  exact wp_mono (sendValue_trans hb (hw.same rfl rfl rfl)) fun _ _ h' => h'.note rfl

/-- `GasVault.setRegistry`. -/
theorem setRegistry_trans {m : Msg} {r : Address} (h : Trans net ok d s w) :
    (setRegistry m r).wp (bookRely net ok o)
      (fun _ w' => Trans net ok d s w') w := by
  unfold setRegistry
  simp only [wp_bind, wp_onlyOwner, wp_require, wp_read, wp_emit, wp_modify]
  exact check fun _ => check fun _ => (h.note rfl).same rfl rfl rfl

/-- `GasVault.transferOwnership`. -/
theorem transferOwnership_trans {m : Msg} {x : Address} (h : Trans net ok d s w) :
    (transferOwnership m x).wp (bookRely net ok o)
      (fun _ w' => Trans net ok d s w') w := by
  unfold transferOwnership
  simp only [wp_bind, wp_onlyOwner, wp_require, wp_modify]
  exact check fun _ => check fun _ => h.same rfl rfl rfl

/-- `GasVault.renounceOwnership`. -/
theorem renounceOwnership_trans {m : Msg} (h : Trans net ok d s w) :
    (renounceOwnership m).wp (bookRely net ok o)
      (fun _ w' => Trans net ok d s w') w := by
  unfold renounceOwnership
  simp only [wp_bind, wp_onlyOwner, wp_modify]
  exact check fun _ => h.same rfl rfl rfl

end GasVault

-- ============================================================== the adapter

/-- The adapter approves its router. -/
theorem forceApprove_trans {t p : Address} (hb : Tracks net ok o s)
    (h : Trans net ok d s w) :
    (forceApprove net t p).wp (bookRely net ok o)
      (fun _ w' => Trans net ok d s w') w := by
  unfold forceApprove
  simp only [wp_ite, wp_pure, wp_bind, wp_ask_iff]
  exact ⟨fun _ => h, fun _ => h.ask hb fun _ _ h => h⟩

/-- A swap is no act of the registry's. -/
theorem UniswapV3Adapter.swap_trans {x tIn tOut r : Address} {a : AdapterParams}
    {amountIn minOut : U256} (hb : Tracks net ok o s) (h : Trans net ok d s w) :
    (swap net x a tIn tOut amountIn minOut r).wp (bookRely net ok o)
      (fun _ w' => Trans net ok d s w') w := by
  have hask : ∀ w', Trans net ok d s w' → Asks (bookRely net ok o)
      (.exactInputSingle a.router (routerParams a tIn tOut amountIn minOut r))
      (fun _ w'' => Trans net ok d s w'') w' :=
    fun w' h' => h'.ask hb fun _ _ h => h
  unfold swap
  simp only [wp_bind, wp_read, wp_ite, wp_modify, wp_ask_iff, wp_pure]
  refine ⟨fun _ => ?_, fun _ => hask w h⟩
  exact wp_mono (forceApprove_trans hb h) fun _ w' h' => hask _ (h'.same rfl rfl rfl)

-- ============================================================== the registry

namespace CommitmentRegistry

variable {m : Msg} {h n : Bytes32} {r : CommitmentRecord}

/-- The registry's lock is not in the book either. -/
theorem nonReentrant_trans {body : Contract Unit} (hw : Trans net ok d s w)
    (hbody : ∀ w', Trans net ok d s w' → w'.book = w.book →
      body.wp (bookRely net ok o) (fun _ w'' => Trans net ok d' s w'') w') :
    (nonReentrant body).wp (bookRely net ok o)
      (fun _ w' => Trans net ok d' s w') w := by
  rw [wp_nonReentrant]
  refine check fun _ => wp_mono (hbody _ (hw.same rfl rfl rfl) rfl) ?_
  exact fun _ w'' h'' => h''.same rfl rfl rfl

-- ============================================================= registration

/-- The slot is written and the stake locked, in one act. -/
theorem openCommitment_trans (hb : Tracks net ok o s) (hw : Trans net ok d s w)
    (hnone : (w.book.record h).status = .NONE) (hpend : r.status = .PENDING)
    (hsize : 0 < r.size.val) (hok : ok (.register h r)) :
    (openCommitment net h r).wp (bookRely net ok o)
      (fun _ w' => Trans net ok (d + {.register h r.owner r.tokenIn r.size.val}) s w') w := by
  unfold openCommitment vaultLock
  simp only [wp_bind, wp_setRecord, wp_read, wp_ite, wp_ask_iff, wp_pure, wp_emit]
  constructor
  · intro hv
    refine wp_mono (CollateralVault.lockCollateral_trans hw hok ?_ ?_ rfl rfl)
      fun _ _ h' => h'.note rfl
    · exact fun hreg hfree _ => ⟨hnone, hpend, hsize, fun _ => ⟨hreg.symm, hfree⟩⟩
    · exact if_pos hv
  · intro hv
    have hact : Trans net ok _ s (w.setRecord h r) := hw.act hok ?_ ?_ rfl rfl
    · exact hact.ask hb fun _ w' h' => h'.note rfl
    · exact ⟨hnone, hpend, hsize, fun hv' => absurd hv' hv⟩
    · exact (if_neg hv).symm

variable {tIn tOut : Address} {size minOut : U256} {expiry : UInt64}
variable {kind : CommitmentKind}

/-- `registerCommitment` is one act. -/
theorem registerCommitment_trans (hb : Tracks net ok o s) (hw : Trans net ok d s w)
    (hok : ok (.register h (newRecord m tIn tOut size minOut expiry kind))) :
    (registerCommitment net m h tIn tOut size minOut expiry kind).wp
      (bookRely net ok o)
      (fun _ w' => Trans net ok (d + {.register h m.sender tIn size.val}) s w') w := by
  unfold registerCommitment
  refine nonReentrant_trans hw fun w hw _ => ?_
  simp only [wp_bind, wp_whenNotPaused, wp_read, wp_require]
  refine check fun _ => check fun _ => check fun _ => check fun _ => check fun _ =>
    check fun hsize => check fun _ => check fun _ => check fun hnone => ?_
  exact openCommitment_trans hb hw hnone rfl hsize hok

/-- So is each row of a batch. -/
theorem registerRow_trans {row : BatchRow} (hb : Tracks net ok o s)
    (hw : Trans net ok d s w)
    (hok : ok (.register row.1
      (newRecord m tIn tOut row.2.1 row.2.2.1 row.2.2.2 kind))) :
    (registerRow net m tIn tOut kind row).wp (bookRely net ok o)
      (fun _ w' => Trans net ok (d + {rowItem m.sender tIn row}) s w') w := by
  obtain ⟨h, size, minOut, expiry⟩ := row
  unfold registerRow
  simp only [wp_bind, wp_read, wp_require]
  refine check fun _ => check fun hsize => check fun _ => check fun hnone => ?_
  exact openCommitment_trans hb hw hnone rfl hsize hok

/-- The batch loop: one registration a row. -/
theorem registerRows_trans {rows : List BatchRow} (hb : Tracks net ok o s)
    (hw : Trans net ok d s w)
    (hok : ∀ row ∈ rows, ok (.register row.1
      (newRecord m tIn tOut row.2.1 row.2.2.1 row.2.2.2 kind))) :
    (registerRows net m tIn tOut kind rows).wp (bookRely net ok o)
      (fun _ w' => Trans net ok
        (d + (rows.map (rowItem m.sender tIn) : List Item)) s w') w := by
  induction rows generalizing d w with
  | nil =>
      rw [registerRows, wp_pure]
      simpa using hw
  | cons row rows ih =>
      rw [registerRows, wp_bind]
      refine wp_mono (registerRow_trans hb hw (hok row (by simp))) fun _ w' hw' => ?_
      have hrest := ih hw' fun row' hrow => hok row' (by simp [hrow])
      refine wp_mono hrest fun _ w'' hw'' => ?_
      rw [List.map_cons, ← Multiset.cons_coe, ← Multiset.singleton_add, ← add_assoc]
      exact hw''

/-- A batch is the acts of its rows, in order; by induction on the rows. -/
theorem registerCommitmentBatch_trans {hs : List Bytes32}
    {sizes minOuts : List U256} {expiries : List UInt64}
    (hb : Tracks net ok o s) (hw : Trans net ok d s w)
    (hok : ∀ row ∈ batchRows hs sizes minOuts expiries, ok (.register row.1
      (newRecord m tIn tOut row.2.1 row.2.2.1 row.2.2.2 kind))) :
    (registerCommitmentBatch net m hs tIn tOut sizes minOuts expiries kind).wp
      (bookRely net ok o)
      (fun _ w' => Trans net ok (d + ((batchRows hs sizes minOuts expiries).map
        (rowItem m.sender tIn) : List Item)) s w') w := by
  unfold registerCommitmentBatch
  refine nonReentrant_trans hw fun w hw _ => ?_
  simp only [wp_bind, wp_whenNotPaused, wp_read, wp_require]
  refine check fun _ => check fun _ => check fun _ => check fun _ => check fun _ =>
    check fun _ => check fun _ => check fun _ => check fun _ => ?_
  exact registerRows_trans hb hw hok

-- ==================================================================== exits

variable {act : Act} {w₀ : World}

/-- The end of an exit that releases, with either kind of vault. -/
theorem vaultRelease_trans {dst : Address} (hb : Tracks net ok o s)
    (hw : Trans net ok d s w₀) (hok : ok act)
    (hg : w.book.Obeys net (fun v => w.book.Covers h r v
      ∧ w₀.book.CanPay net r.tokenIn v r.size.val) → act.guard net w₀.book)
    (he : act.effect net w₀.book = w.book.onVault net fun v =>
      Book.release net v h r.tokenIn r.size.val dst)
    (hd : act.incurs net w₀.book = d' + w.book.settlement net h r)
    (hbal : w.balances = w₀.balances) (hl : w.log = w₀.log)
    (hr : w.receipts = w₀.receipts) :
    (vaultRelease net h r.tokenIn r.size dst).wp (bookRely net ok o)
      (fun _ w' => Trans net ok (d + d') s w') w := by
  unfold vaultRelease
  simp only [wp_bind, wp_read, wp_ite, wp_ask_iff, wp_pure]
  constructor
  · intro hv
    refine CollateralVault.releaseForExecution_trans hb hw hok ?_ ?_ ?_ hbal hl hr
    · exact fun hreg hle hpay => hg fun _ => ⟨hreg.symm, hle, hpay⟩
    · rw [he, Book.onVault]
      exact if_pos hv
    · rw [hd, Book.settlement]
      congr 1
      exact if_pos hv
  · intro hv
    have hact : Trans net ok _ s w := hw.act hok ?_ ?_ hl hr
    · rw [hd, Book.settlement, if_neg (show ¬net.isVault w.book.vault = true from hv),
        add_zero] at hact
      exact hact.ask hb fun _ w' h' => h'
    · exact hg fun hv' => absurd hv' hv
    · rw [he, Book.onVault]
      exact (if_neg hv).symm

/-- The end of an exit that gives back, with either kind of vault. -/
theorem vaultReturn_trans (hb : Tracks net ok o s)
    (hw : Trans net ok d s w₀) (hok : ok act)
    (hg : w.book.Obeys net (fun v => w.book.Covers h r v) → act.guard net w₀.book)
    (he : act.effect net w₀.book = w.book.onVault net fun v =>
      Book.giveBack v h r.owner r.tokenIn r.size.val)
    (hd : act.incurs net w₀.book = d' + w.book.settlement net h r)
    (hl : w.log = w₀.log) (hr : w.receipts = w₀.receipts) :
    (vaultReturn net h r.owner r.tokenIn r.size).wp (bookRely net ok o)
      (fun _ w' => Trans net ok (d + d') s w') w := by
  unfold vaultReturn
  simp only [wp_bind, wp_read, wp_ite, wp_ask_iff, wp_pure]
  constructor
  · intro hv
    refine CollateralVault.returnCollateral_trans hw hok ?_ ?_ ?_ hl hr
    · exact fun hreg hle _ => hg fun _ => ⟨hreg.symm, hle⟩
    · rw [he, Book.onVault]
      exact if_pos hv
    · rw [hd, Book.settlement]
      congr 1
      exact if_pos hv
  · intro hv
    have hact : Trans net ok _ s w := hw.act hok ?_ ?_ hl hr
    · rw [hd, Book.settlement, if_neg (show ¬net.isVault w.book.vault = true from hv),
        add_zero] at hact
      exact hact.ask hb fun _ w' h' => h'
    · exact hg fun hv' => absurd hv' hv
    · rw [he, Book.onVault]
      exact (if_neg hv).symm

-- ---------------------------------------------------------------- execution

/-- The registry calls its adapter, which may be anybody's. -/
theorem adapterSwap_trans {x y : U256} {u : Address} (hb : Tracks net ok o s)
    (hw : Trans net ok d s w) :
    (adapterSwap net tIn tOut x y u).wp (bookRely net ok o)
      (fun _ w' => Trans net ok d s w') w := by
  unfold adapterSwap
  simp only [wp_bind, wp_read]
  cases net.adapter w.registry.dexAdapter with
  | some a => exact UniswapV3Adapter.swap_trans hb hw
  | none => exact hw.ask hb fun _ _ h' => h'

/-- It calls its gas vault, which may be anybody's. -/
theorem debitGas_trans {u : Address} (hb : Tracks net ok o s)
    (hw : Trans net ok d s w) :
    (debitGas net m u h).wp (bookRely net ok o)
      (fun _ w' => Trans net ok d s w') w := by
  unfold debitGas gasVaultDebit
  simp only [wp_ite, wp_pure, wp_bind, wp_checkedMul, wp_read, wp_ask_iff]
  refine ⟨fun _ => hw, fun _ => check fun _ => check fun _ => ?_⟩
  exact ⟨fun _ => GasVault.debit_trans hb hw, fun _ => hw.ask hb fun _ _ h' => h'⟩

/-- `executeCommitment` is one act, complete when the stake has left the
vault; the swap and the fee come after it. -/
theorem executeCommitment_trans {proof : List UInt8} {fillRef : UInt64}
    (hb : Tracks net ok o s) (hw : Trans net ok d s w)
    (hok : ok (.execute h n (w.book.record h) w.book.adapter)) :
    (executeCommitment net m h n proof fillRef).wp (bookRely net ok o)
      (fun _ w' => Trans net ok (d + {.execute h n}) s w') w := by
  unfold executeCommitment
  refine nonReentrant_trans hw fun w hw hbook => ?_
  rw [← hbook] at hok
  simp only [wp_bind, wp_whenNotPaused]
  refine check fun _ => wp_authorise bookRely_err fun y hy => ?_
  simp only [wp_spend, wp_setStatus, wp_read, World.commitments_setRecord]
  have hrelease : (vaultRelease net h (w.book.record h).tokenIn (w.book.record h).size
      w.book.adapter).wp (bookRely net ok o)
      (fun _ w' => Trans net ok (d + {.execute h n}) s w')
      ((w.spend n).setRecord h ((w.book.record h).close .EXECUTED)) :=
    vaultRelease_trans (r := (w.book.record h).close .EXECUTED) hb hw hok
      (fun hv => ⟨⟨rfl, hy.pending⟩, hy.unspent, rfl, hv⟩) rfl rfl rfl rfl rfl
  refine wp_mono hrelease fun _ w₁ h₁ => ?_
  refine wp_mono (adapterSwap_trans hb h₁) fun _ w₂ h₂ => ?_
  exact wp_mono (debitGas_trans hb h₂) fun _ w₃ h₃ => h₃.note rfl

-- -------------------------------------------------- cancellation and expiry

/-- `cancelCommitment` is one act. -/
theorem cancelCommitment_trans (hb : Tracks net ok o s) (hw : Trans net ok d s w)
    (hok : ok (.cancel h n (w.book.record h))) :
    (cancelCommitment net m h n).wp (bookRely net ok o)
      (fun _ w' => Trans net ok (d + {.cancel h n}) s w') w := by
  unfold cancelCommitment
  refine nonReentrant_trans hw fun w hw hbook => ?_
  rw [← hbook] at hok
  simp only [wp_bind, wp_read, wp_require, wp_spend, wp_setStatus,
    World.commitments_setRecord]
  refine check fun howner => check fun hpend => check fun hfresh => ?_
  have hreturn : (vaultReturn net h (w.book.record h).owner (w.book.record h).tokenIn
      (w.book.record h).size).wp (bookRely net ok o)
      (fun _ w' => Trans net ok (d + {.cancel h n}) s w')
      ((w.spend n).setRecord h ((w.book.record h).close .CANCELLED)) :=
    vaultReturn_trans (r := (w.book.record h).close .CANCELLED) hb hw hok
      (fun hv => ⟨⟨rfl, hpend⟩, hfresh, hv⟩) rfl rfl rfl rfl
  rw [← howner]
  exact wp_mono hreturn fun _ w₁ h₁ => h₁.note rfl

/-- A commitment that is due expires in one act; any other is passed
over. -/
theorem sweepOne_trans (hb : Tracks net ok o s) (hw : Trans net ok d s w)
    (hok : ∀ r, ok (.expire h r)) :
    (sweepOne net h).wp (bookRely net ok o) (fun _ w' => Trans net ok d s w') w := by
  unfold sweepOne
  simp only [wp_bind, wp_read, wp_ite, wp_setStatus, wp_pure]
  refine ⟨fun hdue => ?_, fun _ => hw⟩
  have hreturn : (vaultReturn net h (w.book.record h).owner (w.book.record h).tokenIn
      (w.book.record h).size).wp (bookRely net ok o)
      (fun _ w' => Trans net ok (d + 0) s w')
      (w.setRecord h ((w.book.record h).close .EXPIRED)) :=
    vaultReturn_trans (r := (w.book.record h).close .EXPIRED) hb hw
      (hok (w.book.record h)) (fun hv => ⟨⟨rfl, hdue.1⟩, hv⟩) rfl (zero_add _).symm rfl rfl
  rw [add_zero] at hreturn
  exact wp_mono hreturn fun _ w₁ h₁ => h₁.note rfl

/-- The sweep loop: every hash is settled, or skipped, on its own. -/
theorem sweepAll_trans {hs : List Bytes32} (hb : Tracks net ok o s)
    (hw : Trans net ok d s w) (hok : ∀ h ∈ hs, ∀ r, ok (.expire h r)) :
    (sweepAll net hs).wp (bookRely net ok o)
      (fun _ w' => Trans net ok d s w') w := by
  induction hs generalizing w with
  | nil => exact hw
  | cons h hs ih =>
      rw [sweepAll, wp_bind]
      refine wp_mono (sweepOne_trans hb hw (hok h (by simp))) fun _ w' hw' => ?_
      exact ih hw' fun h' hh => hok h' (by simp [hh])

/-- A sweep is the acts of those that were due; by induction on the
hashes. -/
theorem sweepExpired_trans {hs : List Bytes32} (hb : Tracks net ok o s)
    (hw : Trans net ok d s w) (hok : ∀ h ∈ hs, ∀ r, ok (.expire h r)) :
    (sweepExpired net hs).wp (bookRely net ok o)
      (fun _ w' => Trans net ok d s w') w := by
  unfold sweepExpired
  exact nonReentrant_trans hw fun w hw _ => sweepAll_trans hb hw hok

-- ================================================================= guardian

/-- A setter whose write is an act, or is not on the book at all. -/
theorem setDEXAdapter_trans {x : Address} (hw : Trans net ok d s w)
    (hok : ok (.setAdapter x)) :
    (setDEXAdapter m x).wp (bookRely net ok o)
      (fun _ w' => Trans net ok d s w') w := by
  unfold setDEXAdapter
  simp only [wp_bind, wp_onlyGuardian, wp_require, wp_read, wp_emit, wp_modify]
  exact check fun _ => check fun _ => (hw.note rfl).silent hok trivial rfl rfl rfl rfl

/-- The guardian points the registry elsewhere, which the world must
allow. -/
theorem setCollateralVault_trans {x : Address} (hw : Trans net ok d s w)
    (hok : ok (.setVault x)) :
    (setCollateralVault m x).wp (bookRely net ok o)
      (fun _ w' => Trans net ok d s w') w := by
  unfold setCollateralVault
  simp only [wp_bind, wp_onlyGuardian, wp_require, wp_read, wp_emit, wp_modify]
  exact check fun _ => check fun _ => (hw.note rfl).silent hok trivial rfl rfl rfl rfl

/-- The other settings are not in the book. -/
theorem pause_trans (hw : Trans net ok d s w) :
    (pause m).wp (bookRely net ok o) (fun _ w' => Trans net ok d s w') w := by
  unfold pause
  simp only [wp_bind, wp_onlyGuardian, wp_emit, wp_modify]
  exact check fun _ => .note (hw.same rfl rfl rfl) rfl

/-- Likewise. -/
theorem unpause_trans (hw : Trans net ok d s w) :
    (unpause m).wp (bookRely net ok o) (fun _ w' => Trans net ok d s w') w := by
  unfold unpause
  simp only [wp_bind, wp_onlyGuardian, wp_emit, wp_modify]
  exact check fun _ => .note (hw.same rfl rfl rfl) rfl

/-- Likewise for the gas vault. -/
theorem setGasVault_trans {x : Address} (hw : Trans net ok d s w) :
    (setGasVault m x).wp (bookRely net ok o)
      (fun _ w' => Trans net ok d s w') w := by
  unfold setGasVault
  simp only [wp_bind, wp_onlyGuardian, wp_require, wp_read, wp_emit, wp_modify]
  exact check fun _ => check fun _ => (hw.note rfl).same rfl rfl rfl

/-- Likewise for the guardian. -/
theorem setGuardian_trans {x : Address} (hw : Trans net ok d s w) :
    (setGuardian m x).wp (bookRely net ok o)
      (fun _ w' => Trans net ok d s w') w := by
  unfold setGuardian
  simp only [wp_bind, wp_onlyGuardian, wp_require, wp_modify]
  exact check fun _ => check fun _ => hw.same rfl rfl rfl

/-- Likewise for the feeds. -/
theorem setPriceFeed_trans {x y : Address} (hw : Trans net ok d s w) :
    (setPriceFeed m x y).wp (bookRely net ok o)
      (fun _ w' => Trans net ok d s w') w := by
  unfold setPriceFeed
  simp only [wp_bind, wp_onlyGuardian, wp_require, wp_emit, wp_modify]
  exact check fun _ => check fun _ => .note (hw.same rfl rfl rfl) rfl

/-- Likewise for the staleness. -/
theorem setOracleStaleness_trans {x : U256} (hw : Trans net ok d s w) :
    (setOracleStaleness m x).wp (bookRely net ok o)
      (fun _ w' => Trans net ok d s w') w := by
  unfold setOracleStaleness
  simp only [wp_bind, wp_onlyGuardian, wp_require, wp_read, wp_emit, wp_modify]
  exact check fun _ => check fun _ => (hw.note rfl).same rfl rfl rfl

/-- Likewise for the verifiers. -/
theorem setVerifier_trans {k : UInt8} {x : Address} (hw : Trans net ok d s w) :
    (setVerifier m k x).wp (bookRely net ok o)
      (fun _ w' => Trans net ok d s w') w := by
  unfold setVerifier
  simp only [wp_bind, wp_onlyGuardian, wp_require, wp_emit, wp_modify]
  exact check fun _ => check fun _ => .note (hw.same rfl rfl rfl) rfl

end CommitmentRegistry

end Zstrategy.Contracts
