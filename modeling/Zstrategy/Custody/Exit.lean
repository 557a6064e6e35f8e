/-
The owner's exits. A cancellation by the owner, or a sweep by anybody once
the order has expired, gives the collateral back whatever the guardian has
done before: paused, changed the verifiers, the feeds, the adapter or the
gas vault, or handed over. The one setter that matters is
`setCollateralVault`: the lock stays in the vault the order was opened in,
and the registry asks the vault it points to now.

# Exactly when

`exit_iff` is about one state: where the registry's vault is ready and
solvent and the token pays, an exit works if and only if the lock of the
hash is in that vault. Where the lock is elsewhere, the vault in use owes
the hash nothing and refuses to give back more. `owner_exits_iff` carries
this along a run: the home of a pending order does not move (Homes.lean),
the guards are free (Guards.lean) and the vault stays solvent
(Solvency.lean), so only where the registry points can change.
-/
import Zstrategy.Custody.Guards
import Zstrategy.Custody.Homes
import Zstrategy.Custody.LockstepRuns
import Zstrategy.Custody.Solvency

namespace Zstrategy.Contracts

open Lib Code

variable {net : Net} {w w' : World} {v u t : Address} {h n : Bytes32} {m : Msg}

-- ============================================================== what returns

/-- The call returns without calling out, and `Q` holds after it. -/
def Completes (net : Net) (i : Msg × Call) (Q : World → Prop) (w : World) : Prop :=
  ∃ w', entry net i w = .done () w' ∧ Q w'

theorem completes_iff {i : Msg × Call} {Q : World → Prop} :
    Completes net i Q w ↔ (entry net i).wp Rely.direct (fun _ w' => Q w') w := by
  refine Iff.trans ?_ Outcome.sat_direct.symm
  constructor
  · exact fun ⟨w', hw', hQ⟩ => ⟨(), w', hw', hQ⟩
  · exact fun ⟨_, w', hw', hQ⟩ => ⟨w', hw', hQ⟩

/-- A check of a call that may not revert. -/
theorem direct_check {p q : Prop} {e : String} :
    (p → q) ∧ (¬p → (Rely.direct : Rely World Request Reply).err e) ↔ p ∧ q := by
  constructor
  · intro hpq
    by_cases hp : p
    · exact ⟨hp, hpq.1 hp⟩
    · exact (hpq.2 hp).elim
  · exact fun hpq => ⟨fun _ => hpq.2, fun hp => absurd hpq.1 hp⟩

theorem wp_nonpayable_direct {body : Contract Unit} {Q : Unit → World → Prop} :
    (nonpayable m body).wp Rely.direct Q w ↔ m.value.val = 0 ∧ body.wp Rely.direct Q w := by
  unfold nonpayable
  rw [wp_bind, wp_require, direct_check]

/-- The state a call leaves, noted as returned. -/
def World.returned (m : Msg) (call : Call) (w : World) : World :=
  { w with receipts := w.receipts ++ [⟨w.timestamp, m.sender, call⟩] }

theorem entry_direct {call : Call} {Q : World → Prop} :
    (entry net (m, call)).wp Rely.direct (fun _ w' => Q w') w
      ↔ (dispatch net m call).wp Rely.direct (fun _ w' => Q (w'.returned m call)) w := by
  unfold entry
  rw [wp_bind]
  exact Iff.rfl

-- =============================================================== withdrawals

/-- Towards the vault at `v` and the user `u` the token is an ERC-20: its
balances are words, and it pays out what the vault holds. -/
structure PaysOut (net : Net) (t v u : Address) (w : World) : Prop where
  standard : net.standard t = true
  word : w.balances t v < 2 ^ 256
  pays : ∀ a, w.ext.refuses t v u a = false

/-- `u` can withdraw up to `y` of the token from the vault, and no more. -/
def Withdrawable (net : Net) (u t v : Address) (y : ℕ) (w : World) : Prop :=
  ∀ a : U256, Completes net (⟨u, 0, 0, 0⟩, .withdraw v t a) (fun _ => True) w
    ↔ 0 < a.val ∧ a.val ≤ y

/-- A free balance that the vault holds can be withdrawn. -/
theorem withdrawable_free (hpay : PaysOut net t v u w) (hfree : (w.vaults v).entered = false)
    (hheld : (w.vaults v).freeBalance u t ≤ w.balances t v) :
    Withdrawable net u t v ((w.vaults v).freeBalance u t) w := by
  intro a
  rw [completes_iff, entry_direct, dispatch, wp_nonpayable_direct]
  unfold CollateralVault.withdraw
  rw [CollateralVault.wp_nonReentrant, direct_check]
  simp only [wp_bind, wp_read, wp_require, CollateralVault.wp_subFree, wp_safeTransfer,
    CollateralVault.wp_emit, Moves, direct_check]
  have hsame : ((w.setEntered v true).vaults v).freeBalance = (w.vaults v).freeBalance :=
    congrFun (congrArg Book.free (book_setEntered v true)) v
  rw [hsame]
  constructor
  · exact fun hret => ⟨hret.2.2.1, hret.2.2.2.1⟩
  · intro hret
    obtain ⟨hpos, hle⟩ := hret
    refine ⟨rfl, hfree, hpos, hle, hle, fun _ => ?_, fun hno => absurd hpay.standard hno⟩
    exact ⟨hpay.pays a, hle.trans hheld, trivial⟩

-- =================================================================== refunds

/-- From `w` to `w'` the free balance of `u` went up by `a`, and nothing
that a withdrawal looks at changed otherwise. -/
structure Refunded (v u t : Address) (a : ℕ) (w w' : World) : Prop where
  entered : (w'.vaults v).entered = (w.vaults v).entered
  free : (w'.vaults v).freeBalance u t = (w.vaults v).freeBalance u t + a
  balances : w'.balances = w.balances
  ext : w'.ext = w.ext

theorem refunded_giveBack (v : Address) (h : Bytes32) (u t : Address) (a : ℕ) (w : World) :
    Refunded v u t a w (w.giveBack v h u t a) where
  entered := by simp [World.giveBack, World.setFree, World.setLocked, World.onVault]
  free := by
    show (w.giveBack v h u t a).book.free v u t = _
    rw [book_giveBack]
    show Function.update w.book.free v _ v u t = _
    rw [Function.update_self, update2_same]
    rfl
  balances := rfl
  ext := rfl

/-- A refund of what is covered makes that much more withdrawable. -/
theorem Refunded.withdrawable {a : ℕ} (hr : Refunded v u t a w w') (hpay : PaysOut net t v u w)
    (hfree : (w.vaults v).entered = false)
    (hheld : (w.vaults v).freeBalance u t + a ≤ w.balances t v) :
    ∃ y, Withdrawable net u t v y w ∧ Withdrawable net u t v (y + a) w' := by
  refine ⟨_, withdrawable_free hpay hfree (le_trans (Nat.le_add_right _ a) hheld), ?_⟩
  rw [← hr.free]
  refine withdrawable_free ⟨hpay.standard, ?_, ?_⟩ (hr.entered.trans hfree) ?_
  · rw [hr.balances]
    exact hpay.word
  · rw [hr.ext]
    exact hpay.pays
  · rw [hr.free, hr.balances]
    exact hheld

namespace CommitmentRegistry

theorem wp_vaultReturn_direct (net : Net) {a : U256} {Q : Unit → World → Prop}
    (hv : net.isVault w.registry.vault = true)
    (hreg : (w.vaults w.registry.vault).registry = net.registry)
    (hroom : a.val ≤ (w.vaults w.registry.vault).lockedBalance h t →
      (w.vaults w.registry.vault).freeBalance u t + a.val < 2 ^ 256)
    (hQ : ∀ e, Q () ((w.giveBack w.registry.vault h u t a.val).emit e)) :
    (vaultReturn net h u t a).wp Rely.direct Q w
      ↔ a.val ≤ (w.vaults w.registry.vault).lockedBalance h t := by
  unfold vaultReturn CollateralVault.returnCollateral
  simp only [wp_bind, wp_read, wp_ite, CollateralVault.wp_onlyRegistry, wp_require,
    CollateralVault.wp_subLocked, CollateralVault.wp_addFree, CollateralVault.wp_emit,
    World.freeBalance_setLocked, direct_check]
  constructor
  · exact fun hret => (hret.1 hv).2.1
  · intro hle
    exact ⟨fun _ => ⟨hreg.symm, hle, hle, hroom hle, hQ _⟩, fun hno => absurd hv hno⟩

end CommitmentRegistry

/-- The registry points at a vault of its own, and no guard is taken. -/
structure Ready (net : Net) (w : World) : Prop where
  isVault : net.isVault w.registry.vault = true
  registry : (w.vaults w.registry.vault).registry = net.registry
  entered : w.registry.entered = false
  vaultEntered : (w.vaults w.registry.vault).entered = false

/-- The lock in the vault in use covers `h`. -/
def LockCovers (h : Bytes32) (w : World) : Prop :=
  let r := w.registry.commitments h
  r.size.val ≤ (w.vaults w.registry.vault).lockedBalance h r.tokenIn

/-- The size of `h` can be added to its owner's free balance. -/
def Room (h : Bytes32) (w : World) : Prop :=
  let r := w.registry.commitments h
  (w.vaults w.registry.vault).freeBalance r.owner r.tokenIn + r.size.val < 2 ^ 256

/-- The collateral of `h` comes back from `w` to `w'`. -/
def CollateralBack (h : Bytes32) (w w' : World) : Prop :=
  let r := w.registry.commitments h
  Refunded w.registry.vault r.owner r.tokenIn r.size.val w w'

theorem cancel_completes_iff {Q : World → Prop} (hready : Ready net w)
    (hpending : (w.registry.commitments h).status = .PENDING) (hroom : LockCovers h w → Room h w)
    (hsender : m.sender = (w.registry.commitments h).owner) (hvalue : m.value.val = 0)
    (hn : w.registry.nullifiers n = false) (hQ : ∀ w', CollateralBack h w w' → Q w') :
    Completes net (m, .cancelCommitment h n) Q w ↔ LockCovers h w := by
  let r := w.registry.commitments h
  rw [completes_iff, entry_direct, dispatch, wp_nonpayable_direct]
  unfold CommitmentRegistry.cancelCommitment
  rw [CommitmentRegistry.wp_nonReentrant, direct_check]
  simp only [wp_bind, wp_read, wp_require, CommitmentRegistry.wp_spend,
    CommitmentRegistry.wp_setStatus, World.commitments_setRecord, direct_check,
    CommitmentRegistry.wp_emit]
  have hreturn := CommitmentRegistry.wp_vaultReturn_direct net (h := h) (u := m.sender)
    (w := ((w.setRegistryEntered true).spend n).setRecord h (r.close .CANCELLED))
    (Q := fun _ w' => Q
      (((w'.emit (.registry (.CommitmentCancelled h m.sender))).setRegistryEntered false).returned m
        (.cancelCommitment h n)))
    hready.isVault hready.registry (t := r.tokenIn) (a := r.size) (by rw [hsender]; exact hroom)
    fun e => hQ _ ?_
  · refine Iff.trans ?_ hreturn
    constructor
    · exact fun hret => hret.2.2.2.2.2
    · exact fun hret => ⟨hvalue, hready.entered, hsender.symm, hpending, hn, hret⟩
  · have hback := refunded_giveBack w.registry.vault h m.sender r.tokenIn r.size.val
      (((w.setRegistryEntered true).spend n).setRecord h (r.close .CANCELLED))
    rw [hsender] at hback
    rw [hsender]
    exact ⟨hback.entered, hback.free, hback.balances, hback.ext⟩

theorem sweep_completes_iff {Q : World → Prop} (hready : Ready net w)
    (hpending : (w.registry.commitments h).status = .PENDING) (hroom : LockCovers h w → Room h w)
    (hexpired : (w.registry.commitments h).expiry.toNat < w.timestamp)
    (hvalue : m.value.val = 0) (hQ : ∀ w', CollateralBack h w w' → Q w') :
    Completes net (m, .sweepExpired [h]) Q w ↔ LockCovers h w := by
  let r := w.registry.commitments h
  rw [completes_iff, entry_direct, dispatch, wp_nonpayable_direct]
  unfold CommitmentRegistry.sweepExpired
  rw [CommitmentRegistry.wp_nonReentrant, direct_check]
  simp only [CommitmentRegistry.sweepAll, CommitmentRegistry.sweepOne, wp_bind, wp_read, wp_ite,
    CommitmentRegistry.wp_setStatus, CommitmentRegistry.wp_emit, wp_pure]
  have hreturn := CommitmentRegistry.wp_vaultReturn_direct net (h := h) (u := r.owner)
    (w := (w.setRegistryEntered true).setRecord h (r.close .EXPIRED))
    (Q := fun _ w' => Q
      (((w'.emit (.registry (.CommitmentExpired h (w'.registry.commitments h).owner)))
        |>.setRegistryEntered false).returned m (.sweepExpired [h])))
    hready.isVault hready.registry (t := r.tokenIn) (a := r.size) hroom fun e => hQ _ ?_
  · refine Iff.trans ?_ hreturn
    constructor
    · exact fun hret => hret.2.2.1 ⟨hpending, hexpired⟩
    · exact fun hret => ⟨hvalue, hready.entered, fun _ => hret,
        fun hno => absurd ⟨hpending, hexpired⟩ hno⟩
  · have hback := refunded_giveBack w.registry.vault h r.owner r.tokenIn r.size.val
      ((w.setRegistryEntered true).setRecord h (r.close .EXPIRED))
    exact ⟨hback.entered, hback.free, hback.balances, hback.ext⟩

-- ================================================================ the theorem

/-- The call returns, and afterwards `u` can withdraw `x` more of the token
from the vault than before. -/
def Refunds (net : Net) (i : Msg × Call) (u t v : Address) (x : ℕ) (w : World) : Prop :=
  Completes net i
    (fun w' => ∃ y, Withdrawable net u t v y w ∧ Withdrawable net u t v (y + x) w') w

/-- The call gives the collateral of `h` back to its owner. -/
def Exits (net : Net) (h : Bytes32) (i : Msg × Call) (w : World) : Prop :=
  let r := w.registry.commitments h
  Refunds net i r.owner r.tokenIn w.registry.vault r.size.val w

/-- The token of `h` pays its owner. -/
def Pays (net : Net) (h : Bytes32) (w : World) : Prop :=
  let r := w.registry.commitments h
  PaysOut net r.tokenIn w.registry.vault r.owner w

/-- An exit from `h` that is open to its sender: the owner's cancellation
with an unspent nullifier, or anybody's sweep after expiry. -/
inductive Exit (h : Bytes32) (w : World) : Msg × Call → Prop
  | cancel {m : Msg} {n : Bytes32} (hsender : m.sender = (w.registry.commitments h).owner)
      (hvalue : m.value.val = 0) (hn : w.registry.nullifiers n = false) :
      Exit h w (m, .cancelCommitment h n)
  | sweep {m : Msg} (hexpired : (w.registry.commitments h).expiry.toNat < w.timestamp)
      (hvalue : m.value.val = 0) : Exit h w (m, .sweepExpired [h])

/-- A free balance and a lock are parts of the debt. -/
theorem lock_owed {x : ℕ} (hx : x ≤ (w.vaults v).lockedBalance h t) :
    (w.vaults v).freeBalance u t + x ≤ w.owed v t := by
  have hfree : (w.vaults v).freeBalance u t ≤ ∑ y, (w.vaults v).freeBalance y t :=
    Finset.single_le_sum (f := fun y => (w.vaults v).freeBalance y t)
      (fun _ _ => Nat.zero_le _) (Finset.mem_univ u)
  have hlock : (w.vaults v).lockedBalance h t ≤ ∑ k, (w.vaults v).lockedBalance k t :=
    Finset.single_le_sum (f := fun k => (w.vaults v).lockedBalance k t)
      (fun _ _ => Nat.zero_le _) (Finset.mem_univ h)
  unfold World.owed
  omega

/-- A vault that owes a word's worth at most has room for what it locked. -/
theorem lock_fits (howed : w.owed v t ≤ w.balances t v) {x : ℕ}
    (hx : x ≤ (w.vaults v).lockedBalance h t) :
    (w.vaults v).freeBalance u t + x ≤ w.balances t v :=
  (lock_owed hx).trans howed

/-- In a state that is ready and solvent an exit works if and only if the
lock is in the vault in use. -/
theorem exit_iff {i : Msg × Call} (hi : Exit h w i) (hready : Ready net w)
    (hpending : (w.registry.commitments h).status = .PENDING) (hpay : Pays net h w)
    (howed : w.owed w.registry.vault (w.registry.commitments h).tokenIn
      ≤ w.balances (w.registry.commitments h).tokenIn w.registry.vault) :
    Exits net h i w ↔ LockCovers h w := by
  have hroom : LockCovers h w → Room h w := fun hcov =>
    lt_of_le_of_lt (lock_fits howed hcov) hpay.word
  unfold Exits Refunds
  by_cases hcov : LockCovers h w
  · have hback : ∀ w', CollateralBack h w w' → ∃ y,
        Withdrawable net (w.registry.commitments h).owner (w.registry.commitments h).tokenIn
            w.registry.vault y w
          ∧ Withdrawable net (w.registry.commitments h).owner (w.registry.commitments h).tokenIn
            w.registry.vault (y + (w.registry.commitments h).size.val) w' :=
      fun w' hw' => Refunded.withdrawable hw' hpay hready.vaultEntered (lock_fits howed hcov)
    cases hi with
    | cancel hsender hvalue hn =>
        exact cancel_completes_iff hready hpending hroom hsender hvalue hn hback
    | sweep hexpired hvalue =>
        exact sweep_completes_iff hready hpending hroom hexpired hvalue hback
  · refine ⟨fun hret => ?_, fun h' => absurd h' hcov⟩
    obtain ⟨w', hw', -⟩ := hret
    have hret : Completes net i (fun _ => True) w := ⟨w', hw', trivial⟩
    cases hi with
    | cancel hsender hvalue hn =>
        have hiff := cancel_completes_iff hready hpending hroom hsender hvalue hn
          fun _ _ => trivial
        exact hiff.1 hret
    | sweep hexpired hvalue =>
        exact (sweep_completes_iff hready hpending hroom hexpired hvalue fun _ _ => trivial).1 hret

/-- Between transactions the vault in use, if it is ours, is ready and
solvent in a token that pays. -/
theorem exit_iff_of_run (hd : Deployed w) {P : World → ChainMove → Prop} {i : Msg × Call}
    (hrun : (chain net).Run P ⟨w, []⟩ ⟨w', []⟩) (hv : w'.book.Ours net w'.registry.vault)
    (hpending : (w'.registry.commitments h).status = .PENDING) (hpay : Pays net h w')
    (hi : Exit h w' i) : Exits net h i w' ↔ LockCovers h w' := by
  obtain ⟨hentered, hvaults⟩ := guards_free hd hrun
  obtain ⟨d, ht⟩ := run_tracks allows_any (hrun.mono fun _ _ _ => trivial)
  have howed := ht.covered hd hv.1 hpay.standard
  exact exit_iff hi ⟨hv.1, hv.2, hentered, hvaults _⟩ hpending hpay howed

/-- Every vault may be the home of a hash that is not open. -/
theorem Deployed.homed (hd : Deployed w) (hw : w.book.Ours net w.registry.vault) :
    Homed net (fun _ => w.registry.vault) w.book := by
  have hrecord : ∀ h, w.book.record h = .empty := hd.commitments
  have hnone : CommitmentRecord.empty.status ≠ .PENDING := by decide
  refine ⟨hw, fun h hp => ?_, fun v _ h t => ?_, fun h hp => ?_⟩
  · rw [hrecord] at hp
    exact absurd hp hnone
  · rw [hrecord, CommitmentRecord.empty.due_of_ne hnone, ite_self]
    exact hd.locked v h t
  · rw [hrecord] at hp
    exact absurd hp hnone

/-- The owner's exits. A pending order has a home, the vault that holds
its lock, and it keeps it: at every later point between transactions at
which the order is still pending, each exit works if and only if the
registry points at the home. As long as the registry is never pointed
away from its vault, every exit works. -/
theorem owner_exits_iff (hd : Deployed w) (hw : w.book.Ours net w.registry.vault) :
    (∀ w₁ h, (chain net).Run (Rewires net w) ⟨w, []⟩ ⟨w₁, []⟩ →
        (w₁.registry.commitments h).status = .PENDING →
        ∃ home, (w₁.vaults home).lockedBalance h (w₁.registry.commitments h).tokenIn
            = (w₁.registry.commitments h).size.val
          ∧ ∀ w₂, (chain net).Run (Rewires net w) ⟨w₁, []⟩ ⟨w₂, []⟩ →
            (w₂.registry.commitments h).status = .PENDING → Pays net h w₂ →
            ∀ i, Exit h w₂ i → (Exits net h i w₂ ↔ w₂.registry.vault = home))
      ∧ ∀ w₂ h, (chain net).Run (KeepsWiring net w.registry.vault) ⟨w, []⟩ ⟨w₂, []⟩ →
        (w₂.registry.commitments h).status = .PENDING → Pays net h w₂ →
        ∀ i, Exit h w₂ i → Exits net h i w₂ := by
  constructor
  · intro w₁ h h₁ hp₁
    obtain ⟨d₁, m₁, es₁, rs₁, hpath₁, -⟩ := run_tracks (Rewires.allows net w) h₁
    obtain ⟨home₁, hh₁, hreg₁, -⟩ := homed_path hpath₁ (hd.homed hw) rfl
    refine ⟨home₁ h, ?_, ?_⟩
    · have hlocked := hh₁.locked (home₁ h) (hh₁.ours h hp₁) h (w₁.registry.commitments h).tokenIn
      rw [if_pos rfl, CommitmentRecord.due, if_pos ⟨hp₁, rfl⟩] at hlocked
      exact hlocked
    · intro w₂ h₂ hp₂ hpay i hi
      obtain ⟨d₂, m₂, es₂, rs₂, hpath₂, -⟩ := run_tracks (Rewires.allows net w) h₂
      obtain ⟨home₂, hh₂, -, hsame⟩ := homed_path hpath₂ hh₁ hreg₁
      rw [exit_iff_of_run hd (h₁.trans h₂) hh₂.vault hp₂ hpay hi, ← hsame h hp₁ hp₂]
      exact hh₂.covers_iff hp₂ hh₂.vault
  · intro w₂ h h₂ hp₂ hpay i hi
    obtain ⟨d₂, ht₂⟩ := run_tracks (KeepsWiring.allows net w.registry.vault) h₂
    obtain ⟨hl, -⟩ := lockstep_trans hd ⟨hw.1, rfl, hw.2⟩ ht₂ h
    have hvault : w₂.registry.vault = w.registry.vault := hl.wired.vault
    have hours : w₂.book.Ours net w₂.registry.vault := by
      rw [hvault]
      exact ⟨hl.wired.isVault, hl.wired.registry⟩
    refine (exit_iff_of_run hd h₂ hours hp₂ hpay hi).2 ?_
    have hcov := hl.covers hp₂
    rw [← hvault] at hcov
    exact hcov

-- ================================================================== a sample

/-- The sample with a second vault at 6. -/
def twoVaults : Net := { sampleNet with isVault := fun v => v == 3 || v == 6 }

/-- An order of user 8, and a pause. -/
def samplePaused : List ChainMove :=
  sampleSetup ++ [call 8 (.registerCommitment 77 10 11 60 5 2000 .ORDER_FILL), call 7 .pause]

/-- The same, and the registry points at the vault at 6. -/
def sampleRepointed : List ChainMove :=
  samplePaused ++ [call 7 (.setCollateralVault 6)]

/-- The cancellation of user 8. -/
def sampleExit : Msg × Call := (⟨8, 0, 1, 1⟩, .cancelCommitment 77 500)

theorem owner_exits_iff_sample :
    let w₂ := (chain twoVaults).endState samplePaused sampleWorld
    w₂.registry.paused = true ∧ Exits twoVaults 77 sampleExit w₂ := by
  intro w₂
  have hrun : (chain twoVaults).Run (KeepsWiring twoVaults 3) ⟨sampleWorld, []⟩ ⟨w₂, []⟩ := by
    refine .of_endState ?_ (by decide +kernel)
    simp [samplePaused, sampleSetup, call, KeepsWiring, Call.KeepsWiring]
  have hpays : Pays twoVaults 77 w₂ := ⟨rfl, by decide +kernel, fun _ => rfl⟩
  refine ⟨rfl, ?_⟩
  exact (owner_exits_iff sampleWorld_deployed ⟨rfl, rfl⟩).2 w₂ 77 hrun rfl hpays _
    (.cancel rfl rfl rfl)

/-- After `setCollateralVault` to a vault of the same registry the owner
cannot cancel. -/
theorem repointed_vault_blocks_exit :
    let w₂ := (chain twoVaults).endState sampleRepointed sampleWorld
    (chain twoVaults).Run (Rewires twoVaults sampleWorld) ⟨sampleWorld, []⟩ ⟨w₂, []⟩
      ∧ (w₂.registry.commitments 77).status = .PENDING ∧ Pays twoVaults 77 w₂
      ∧ Exit 77 w₂ sampleExit
      ∧ (entry twoVaults sampleExit w₂).reason = some insufficientLocked
      ∧ ¬Exits twoVaults 77 sampleExit w₂ := by
  intro w₂
  have hreason : (entry twoVaults sampleExit w₂).reason = some insufficientLocked := by
    decide +kernel
  refine ⟨?_, rfl, ⟨rfl, by decide +kernel, fun _ => rfl⟩, .cancel rfl rfl rfl, hreason, ?_⟩
  · refine .of_endState ?_ (by decide +kernel)
    intro s mv hmv
    simp only [sampleRepointed, samplePaused, sampleSetup, call, List.cons_append,
      List.nil_append, List.mem_cons, List.not_mem_nil, or_false] at hmv
    rcases hmv with rfl | rfl | rfl | rfl | rfl | rfl
    case inr.inr.inr.inr.inr => exact ⟨rfl, rfl⟩
    all_goals exact trivial
  · intro hexits
    obtain ⟨w', hdone, -⟩ := hexits
    rw [hdone] at hreason
    cases hreason

end Zstrategy.Contracts
