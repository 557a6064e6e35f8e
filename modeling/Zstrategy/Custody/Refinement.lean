/-
The chain refines the book: along every run, with every nesting of calls,
the book of the current world is reached by acts from the book of the
start (`run_tracks`), and from one point between transactions to another
the acts are exactly those that the new receipts and events show
(`run_trans`).

`ok` carries a run's restriction down to the book: if every act that the
permitted moves can make meets `ok`, the acts of the path do.

# The rely

While one of our programs waits, anything may be called. What the program
relies on is the refinement itself: whatever was called has left the book on
a path of acts from where it was, and what it incurred has been shown. So
the induction over runs is that of the re-entrant machine, with `Tracks` as
the invariant and `Trans` as the relation, and each entry point is
discharged by its lemma of RegistrySteps.lean or VaultSteps.lean.
-/
import Zstrategy.Custody.RegistrySteps

namespace Zstrategy.Contracts

open Lib Code

variable (net : Net)

-- ==================================================== the acts a move makes

/-- The acts that a call from `m.sender`, entered in `w`, can make. -/
def Call.makes (w : World) (m : Msg) : Call → Act → Prop
  | .deposit v t a, act => act = .deposit v m.sender t a.val
  | .withdraw v t a, act => act = .withdraw v m.sender t a.val
  | .lockCollateral v h u t a, act => act = .lock v h u t a.val
  | .releaseForExecution v h t a dst, act => act = .release v h t a.val dst
  | .returnCollateral v h u t a, act => act = .giveBack v h u t a.val
  | .setVaultRegistry v a, act => act = .setVaultRegistry v a
  | .registerCommitment h tIn tOut size minOut expiry kind, act =>
      act = .register h
        (CommitmentRegistry.newRecord m tIn tOut size minOut expiry kind)
  | .registerCommitmentBatch hs tIn tOut sizes minOuts expiries kind, act =>
      ∃ row ∈ CommitmentRegistry.batchRows hs sizes minOuts expiries,
        act = .register row.1 (CommitmentRegistry.newRecord m tIn tOut row.2.1
          row.2.2.1 row.2.2.2 kind)
  | .executeCommitment h n _ _, act =>
      act = .execute h n (w.registry.commitments h) w.registry.dexAdapter
  | .cancelCommitment h n, act => act = .cancel h n (w.registry.commitments h)
  | .sweepExpired hs, act => ∃ h ∈ hs, ∃ r, act = .expire h r
  | .setDEXAdapter a, act => act = .setAdapter a
  | .setCollateralVault a, act => act = .setVault a
  | _, _ => False

/-- The acts of the outside. -/
def Outside.makes : Outside → Act → Prop
  | .transfer t src dst a, act => act = .transfer t src dst a
  | .mint t dst a, act => act = .mint t dst a
  | _, _ => False

def MakesAct (w : World) : ChainMove → Act → Prop
  | .enter (m, call), act => call.makes w m act
  | .outside e, act => e.makes act
  | _, _ => False

/-- Moves that only make acts meeting `ok`, from senders and on instances
the chain is open to. -/
def Allows (ok : Act → Prop) (P : World → ChainMove → Prop) : Prop :=
  ∀ w mv, P w mv → ∀ act, MakesAct w mv act → ok act

theorem allows_any : Allows (fun _ => True) anyMove :=
  fun _ _ _ _ _ => trivial

variable {net}
variable {ok : Act → Prop} {o : World} {s w : World}

-- ============================================================== entry points

theorem wp_nonpayable {m : Msg} {body : Contract Unit} {Q : Unit → World → Prop}
    (hbody : body.wp (bookRely net ok o) Q w) :
    (nonpayable m body).wp (bookRely net ok o) Q w := by
  unfold nonpayable
  simp only [wp_bind, wp_require]
  exact check fun _ => hbody

/-- A payable or checked body that starts with nothing outstanding. -/
private theorem from_start {d : Multiset Item} {m : Msg} {body : Contract Unit}
    (hbody : body.wp (bookRely net ok o)
      (fun _ w' => Trans net ok (0 + d) s w') w) :
    (nonpayable m body).wp (bookRely net ok o)
      (fun _ w' => Trans net ok d s w') w := by
  rw [zero_add] at hbody
  exact wp_nonpayable hbody

/-- An open call comes from an account that is neither the registry nor a
vault, and names an instance that exists. -/
theorem opened_iff {i : Msg × Call} (h : (chain net).opened i = true) :
    i.1.sender ≠ net.registry ∧ net.isVault i.1.sender = false
      ∧ i.2.onNet net = true := by
  simp only [chain, Net.ours, Bool.and_eq_true, Bool.not_eq_true', Bool.or_eq_false_iff,
    beq_eq_false_iff_ne] at h
  exact ⟨h.1.1.1.1.1, h.1.1.1.2, h.2⟩

/-- Every entry point makes its acts and incurs what its receipt shows. -/
theorem dispatch_trans {m : Msg} {call : Call} (hb : Tracks net ok o w)
    (hopen : (chain net).opened (m, call) = true)
    (hok : ∀ act, call.makes w m act → ok act) :
    (dispatch net m call).wp (bookRely net ok o)
      (fun _ w' => Trans net ok (call.shows m.sender) w w') w := by
  obtain ⟨hreg, hvault, hon⟩ := opened_iff hopen
  have h₀ : Trans net ok 0 w w := .refl w
  cases call with
  | deposit v t a =>
      exact from_start (CollateralVault.deposit_trans hb h₀ hon hvault (hok _ rfl))
  | withdraw v t a =>
      exact from_start (CollateralVault.withdraw_trans hb h₀ hon hvault (hok _ rfl))
  | lockCollateral v h u t a =>
      exact wp_nonpayable
        (CollateralVault.foreign_lock_trans h₀ hon hreg (hok _ rfl))
  | releaseForExecution v h t a dst =>
      exact wp_nonpayable
        (CollateralVault.foreign_release_trans hb h₀ hon hreg (hok _ rfl))
  | returnCollateral v h u t a =>
      exact wp_nonpayable
        (CollateralVault.foreign_return_trans h₀ hon hreg (hok _ rfl))
  | setVaultRegistry v a =>
      exact wp_nonpayable (CollateralVault.setRegistry_trans h₀ (hok _ rfl))
  | transferVaultOwnership v a =>
      exact wp_nonpayable (CollateralVault.transferOwnership_trans h₀)
  | renounceVaultOwnership v =>
      exact wp_nonpayable (CollateralVault.renounceOwnership_trans h₀)
  | registerCommitment h tIn tOut size minOut expiry kind =>
      exact from_start (CommitmentRegistry.registerCommitment_trans hb h₀ (hok _ rfl))
  | registerCommitmentBatch hs tIn tOut sizes minOuts expiries kind =>
      exact from_start (CommitmentRegistry.registerCommitmentBatch_trans hb h₀
        fun row hrow => hok _ ⟨row, hrow, rfl⟩)
  | executeCommitment h n proof fillRef =>
      exact from_start (CommitmentRegistry.executeCommitment_trans hb h₀ (hok _ rfl))
  | cancelCommitment h n =>
      exact from_start (CommitmentRegistry.cancelCommitment_trans hb h₀ (hok _ rfl))
  | sweepExpired hs =>
      exact wp_nonpayable (CommitmentRegistry.sweepExpired_trans hb h₀
        fun h hh r => hok _ ⟨h, hh, r, rfl⟩)
  | pause => exact wp_nonpayable (CommitmentRegistry.pause_trans h₀)
  | unpause => exact wp_nonpayable (CommitmentRegistry.unpause_trans h₀)
  | setDEXAdapter a =>
      exact wp_nonpayable (CommitmentRegistry.setDEXAdapter_trans h₀ (hok _ rfl))
  | setGasVault a => exact wp_nonpayable (CommitmentRegistry.setGasVault_trans h₀)
  | setCollateralVault a =>
      exact wp_nonpayable
        (CommitmentRegistry.setCollateralVault_trans h₀ (hok _ rfl))
  | setGuardian a => exact wp_nonpayable (CommitmentRegistry.setGuardian_trans h₀)
  | setPriceFeed t f =>
      exact wp_nonpayable (CommitmentRegistry.setPriceFeed_trans h₀)
  | setOracleStaleness x =>
      exact wp_nonpayable (CommitmentRegistry.setOracleStaleness_trans h₀)
  | setVerifier k v => exact wp_nonpayable (CommitmentRegistry.setVerifier_trans h₀)
  | gasDeposit => exact GasVault.deposit_trans h₀
  | gasReceive => exact GasVault.deposit_trans h₀
  | gasWithdraw a => exact wp_nonpayable (GasVault.withdraw_trans hb h₀)
  | gasDebit u k a h => exact wp_nonpayable (GasVault.debit_trans hb h₀)
  | setGasVaultRegistry a => exact wp_nonpayable (GasVault.setRegistry_trans h₀)
  | transferGasVaultOwnership a =>
      exact wp_nonpayable (GasVault.transferOwnership_trans h₀)
  | renounceGasVaultOwnership =>
      exact wp_nonpayable (GasVault.renounceOwnership_trans h₀)
  | adapterSwap x tIn tOut amountIn minOut recipient =>
      rw [dispatch]
      cases net.adapter x with
      | some a =>
          refine wp_nonpayable ?_
          rw [wp_bind]
          exact UniswapV3Adapter.swap_trans hb h₀
      | none => exact trivial

-- =============================================================== the outside

theorem outside_trans {e : Outside} {w' : World} (hok : ∀ act, e.makes act → ok act)
    (he : e.effect net w = some w') : Trans net ok 0 w w' := by
  have h₀ : Trans net ok 0 w w := .refl w
  cases e with
  | externals x =>
      cases he
      exact h₀.same rfl rfl rfl
  | transfer t src dst a =>
      simp only [Outside.effect] at he
      split at he
      case isFalse => cases he
      case isTrue hg =>
        cases he
        exact h₀.silent (hok _ rfl) ⟨hg.2.1, fun _ => hg.2.2⟩ rfl
          (book_moveToken hg.1 src dst a) rfl rfl
  | mint t dst a =>
      simp only [Outside.effect] at he
      split at he
      case isFalse => cases he
      case isTrue hg =>
        cases he
        exact h₀.silent (hok _ rfl) hg rfl rfl rfl rfl
  | payEth src dst a =>
      simp only [Outside.effect] at he
      split at he
      case isFalse => cases he
      case isTrue =>
        cases he
        exact h₀.same rfl rfl rfl
  | tick x =>
      cases he
      exact h₀.same rfl rfl rfl

-- ================================================================ refinement

/-- The chain keeps to the book, one entry point at a time. -/
theorem chain_sound {P : World → ChainMove → Prop} (hP : Allows ok P) (o : World) :
    (chain net).Sound P (Tracks net ok o) (Trans net ok 0) where
  refl := .refl
  trans _ _ _ h h' := h.after h'
  entry := by
    rintro ⟨m, call⟩ w hopen hmv hb
    have hcall := dispatch_trans hb hopen fun act => hP w _ hmv act
    show (entry net (m, call)).wp (bookRely net ok o) _ w
    unfold entry receipt
    simp only [wp_bind, wp_modify]
    exact wp_mono hcall fun _ w' h =>
      have h' := h.receipt (x := ⟨w'.timestamp, m.sender, call⟩)
      ⟨hb.trans h', h'⟩
  outside := by
    intro e w w' hmv hb he
    have h := outside_trans (fun act => hP w _ hmv act) he
    exact ⟨hb.trans h, h⟩

/-- In every configuration of a run, the book is reached by acts, and they
incurred what is shown and what unfinished calls still owe. -/
theorem run_tracks {P : World → ChainMove → Prop} (hP : Allows ok P)
    {c : ChainConfig} (h : (chain net).Run P ⟨w, []⟩ c) :
    ∃ d, Trans net ok d w c.world :=
  h.inv (chain_sound hP w) ⟨0, .refl w⟩

/-- Between two points outside any transaction, the acts are those shown. -/
theorem run_trans {P : World → ChainMove → Prop} (hP : Allows ok P) {w' : World}
    (h : (chain net).Run P ⟨w, []⟩ ⟨w', []⟩) : Trans net ok 0 w w' :=
  h.rel (chain_sound hP w) ⟨0, .refl w⟩

end Zstrategy.Contracts
