/-
Lockstep on the chain: the vault's `insufficient locked balance` check is
unreachable from the three exits, and what a vault's log shows as settled
for a hash is nothing while the hash is pending and its size once it is
terminal.

The first part reads the exits under a rely that does not let the vault's
message pass, with lockstep as its invariant. The second adds up what events
show: a released or returned lock is settled in full, so the total for a
hash is its size or nothing.
-/
import Zstrategy.Contracts.Messages
import Zstrategy.Custody.Lockstep

namespace Zstrategy.Contracts

open Lib Code

variable {net : Net} {v : Address} {w : World}

-- ============================================================ the unused check

theorem insufficientLocked_lenient : Lenient (.avoids insufficientLocked) :=
  .avoids (by decide)

namespace CommitmentRegistry

variable {h n : Bytes32} {m : Msg}

theorem executeCommitment_avoids {proof : List UInt8} {x : UInt64}
    (hl : Lockstep net v w.book) :
    (executeCommitment net m h n proof x).wp (.avoids insufficientLocked)
      (fun _ _ => True) w := by
  have hvault : w.registry.vault = v := hl.wired.vault
  have hother : nullifierSpent ≠ insufficientLocked := by decide
  refine executeCommitment_lenient insufficientLocked_lenient (.inl hother) ?_
  intro hp
  rw [hvault]
  exact .inr (hl.covers hp)

/-- A return that is covered, by our vault. -/
theorem vaultReturn_avoids {u t : Address} {a : U256} {Q : Unit → World → Prop}
    (hw : w.book.Wired net v) (hle : a.val ≤ w.book.locked v h t)
    (hQ : ∀ e, Q () ((w.giveBack v h u t a.val).emit e)) :
    (vaultReturn net h u t a).wp (.avoids insufficientLocked) Q w := by
  have hΓ := insufficientLocked_lenient
  have hv : w.registry.vault = v := hw.vault
  unfold vaultReturn CollateralVault.returnCollateral
  simp only [wp_bind, wp_read, wp_ite, hv, CollateralVault.wp_onlyRegistry, wp_require,
    CollateralVault.wp_subLocked, CollateralVault.wp_addFree, CollateralVault.wp_emit]
  refine ⟨fun _ => hΓ.other (by decide) fun _ => ?_, fun hn => absurd hw.isVault hn⟩
  refine checked (.inr hle) fun _ => hΓ.other (by decide) fun _ => ?_
  rw [World.freeBalance_setLocked]
  exact hΓ.other (by decide) fun _ => hQ _

theorem cancelCommitment_avoids (hl : Lockstep net v w.book) :
    (cancelCommitment net m h n).wp (.avoids insufficientLocked) (fun _ _ => True) w := by
  have hΓ := insufficientLocked_lenient
  have hother : nullifierSpent ≠ insufficientLocked := by decide
  unfold cancelCommitment
  rw [wp_nonReentrant]
  refine hΓ.other (by decide) fun _ => ?_
  simp only [wp_bind, wp_read, wp_require, wp_spend, wp_setStatus,
    World.commitments_setRecord]
  refine hΓ.other (by decide) fun _ => ?_
  refine hΓ.other (by decide) fun hp => checked (.inl hother) fun _ => ?_
  exact vaultReturn_avoids ⟨hl.wired.isVault, hl.wired.vault, hl.wired.registry⟩
    (hl.covers hp) fun _ => trivial

theorem sweepOne_avoids (hl : Lockstep net v w.book) :
    (sweepOne net h).wp (.avoids insufficientLocked) (fun _ w' => Lockstep net v w'.book) w := by
  unfold sweepOne
  simp only [wp_bind, wp_read, wp_ite, wp_setStatus, wp_pure]
  refine ⟨fun hdue => ?_, fun _ => hl⟩
  have hcov := hl.covers hdue.1
  refine vaultReturn_avoids ⟨hl.wired.isVault, hl.wired.vault, hl.wired.registry⟩ hcov
    fun e => ?_
  have hact := hl.act (a := .expire h (w.book.record h)) trivial
    ⟨⟨rfl, hdue.1⟩, fun _ => by rw [hl.wired.vault]; exact ⟨hl.wired.registry, hcov⟩⟩
  rw [Act.effect, Book.onVault_eq hl.wired.isVault (by exact hl.wired.vault),
    ← book_setRecord, ← book_giveBack] at hact
  exact hact

theorem sweepExpired_avoids {hs : List Bytes32} (hl : Lockstep net v w.book) :
    (sweepExpired net hs).wp (.avoids insufficientLocked) (fun _ _ => True) w := by
  have hall : ∀ (hs : List Bytes32) (w : World), Lockstep net v w.book →
      (sweepAll net hs).wp (.avoids insufficientLocked) (fun _ _ => True) w := by
    intro hs
    induction hs with
    | nil => exact fun _ _ => trivial
    | cons h hs ih =>
        intro w hl
        rw [sweepAll, wp_bind]
        exact wp_mono (sweepOne_avoids hl) fun _ w' hl' => ih w' hl'
  unfold sweepExpired
  rw [wp_nonReentrant]
  exact insufficientLocked_lenient.other (by decide) fun _ => hall hs _ hl

end CommitmentRegistry

/-- The three calls that settle commitments. -/
def Call.IsExit : Call → Prop
  | .executeCommitment _ _ _ _ | .cancelCommitment _ _ | .sweepExpired _ => True
  | _ => False

/-- In lockstep no exit runs into the vault's check. -/
theorem exit_avoids {m : Msg} {call : Call} (hl : Lockstep net v w.book)
    (hexit : call.IsExit) : ¬(entry net (m, call) w).CanRevert insufficientLocked := by
  cases call with
  | executeCommitment h n proof x =>
      exact entry_avoids (by decide) (CommitmentRegistry.executeCommitment_avoids hl) rfl
  | cancelCommitment h n =>
      exact entry_avoids (by decide) (CommitmentRegistry.cancelCommitment_avoids hl) rfl
  | sweepExpired hs =>
      exact entry_avoids (by decide) (CommitmentRegistry.sweepExpired_avoids hl) rfl
  | _ => exact hexit.elim

-- ============================================================ what the log shows

/-- What an event settles of `h` at `v`. -/
theorem settledBy_event (h : Bytes32) (e : Event) :
    tally (Item.settles v h) e.shows = settledTotal v h [e] := by
  unfold settledTotal
  cases e with
  | vault x e => cases e <;> simp [Event.shows, Item.settles]
  | registry e => simp [Event.shows]
  | gasVault e => simp [Event.shows]

/-- A returned call settles nothing by itself: its events do. -/
theorem settledBy_call (h : Bytes32) (u : Address) (c : Call) :
    tally (Item.settles v h) (c.shows u) = 0 := by
  cases c with
  | registerCommitmentBatch hs tIn tOut sizes minOuts expiries kind =>
      simp [Call.shows, tally, Item.settles, rowItem, Function.comp_def]
  | _ => simp [Call.shows, Item.settles]

theorem settledBy_shown (h : Bytes32) (es : List Event) (rs : List Receipt) :
    tally (Item.settles v h) (shown es rs) = settledTotal v h es := by
  have hrs : (rs.map fun r => tally (Item.settles v h) r.shows).sum = 0 := by
    simp [Receipt.shows, settledBy_call]
  rw [tally_shown, hrs, add_zero]
  induction es with
  | nil => rfl
  | cons e es ih =>
      rw [List.map_cons, List.sum_cons, ih, settledBy_event]
      simp [settledTotal]

-- ==================================================================== runs

/-- A wired deployment is in lockstep. -/
theorem Wired.lockstep (hd : Deployed w) (hw : Wired net v w) :
    Lockstep net v w.book where
  wired := ⟨hw.isVault, hw.vault, hw.registry⟩
  locked h t := by
    show (w.vaults v).lockedBalance h t = (w.registry.commitments h).due t
    rw [hd.locked, hd.commitments]
    rfl
  size h hp := by
    rw [show w.book.record h = .empty from hd.commitments h] at hp
    cases hp

/-- Lockstep, and the settled total up to what unfinished calls still owe. -/
theorem lockstep_trans (hd : Deployed w) (hw : Wired net v w) {d : Multiset Item}
    {w' : World} (ht : Trans net (Act.KeepsWiring net v) d w w') (h : Bytes32) :
    Lockstep net v w'.book
      ∧ tally (Item.settles v h) d + settledTotal v h w'.log = (w'.book.record h).done := by
  obtain ⟨m, es, rs, hp, hlog, -, rfl⟩ := ht
  have h₀ : ∀ h, (w.book.record h).done = 0 := by
    intro h
    rw [show w.book.record h = .empty from hd.commitments h]
    rfl
  obtain ⟨hl, hm⟩ := settled_path hp (hw.lockstep hd) h₀ h
  rw [tally_add, settledBy_shown] at hm
  rw [hlog, hd.log, List.nil_append]
  exact ⟨hl, hm⟩

/-- Registry status and vault lock in lockstep, along every run that keeps
the wiring; what follows for the exits and for the settled totals. -/
theorem status_lock_lockstep (hd : Deployed w) (hw : Wired net v w) {c : ChainConfig}
    (hrun : (chain net).Run (KeepsWiring net v) ⟨w, []⟩ c) (h : Bytes32) :
    let r := c.world.registry.commitments h
    let locked := (c.world.vaults v).lockedBalance h
    (r.status = .PENDING →
        locked r.tokenIn = r.size.val ∧ 0 < r.size.val ∧
          ∀ t, t ≠ r.tokenIn → locked t = 0)
      ∧ (r.status ≠ .PENDING → ∀ t, locked t = 0)
      ∧ (∀ m call, call.IsExit →
          ¬(entry net (m, call) c.world).CanRevert insufficientLocked)
      ∧ (¬r.status.Terminal → settledTotal v h c.world.log = 0)
      ∧ settledTotal v h c.world.log ≤ r.size.val
      ∧ (r.status.Terminal → c.stack = [] →
          settledTotal v h c.world.log = r.size.val) := by
  intro r locked
  obtain ⟨d, ht⟩ := run_tracks (KeepsWiring.allows net v) hrun
  obtain ⟨hl, hsum⟩ := lockstep_trans hd hw ht h
  have hlocked : ∀ t, locked t = r.due t := hl.locked h
  have hdone : r.done ≤ r.size.val := by
    unfold CommitmentRecord.done
    split <;> omega
  refine ⟨fun hp => ⟨?_, hl.size h hp, fun t ht => ?_⟩, fun hp t => ?_,
    fun m call => exit_avoids hl, fun hn => ?_, ?_, fun hterm hstack => ?_⟩
  · rw [hlocked, CommitmentRecord.due, if_pos ⟨hp, rfl⟩]
  · rw [hlocked, CommitmentRecord.due, if_neg fun hr => ht hr.2]
  · rw [hlocked, CommitmentRecord.due_of_ne hp]
  · have hzero : (c.world.book.record h).done = 0 :=
      CommitmentRecord.done_eq_zero hn
    omega
  · have hr : (c.world.book.record h).done = r.done := rfl
    omega
  · obtain ⟨w', stack⟩ := c
    cases hstack
    obtain ⟨-, hsum⟩ := lockstep_trans hd hw
      (run_trans (KeepsWiring.allows net v) hrun) h
    rw [tally_zero, zero_add] at hsum
    rw [hsum, CommitmentRecord.done]
    exact if_pos hterm

/-- A registration of user 8, a cancellation, and a second registration. -/
def sampleLocks : List ChainMove :=
  sampleSetup ++
    [call 8 (.registerCommitment 77 10 11 60 5 2000 .ORDER_FILL),
      call 8 (.cancelCommitment 77 500),
      call 8 (.registerCommitment 78 10 11 30 5 2000 .DCA)]

theorem status_lock_lockstep_sample :
    ∃ c, (chain sampleNet).play sampleLocks ⟨sampleWorld, []⟩ = some c
      ∧ settledTotal 3 77 c.world.log = 60
      ∧ (c.world.vaults 3).lockedBalance 78 10 = 30 := by
  have hsome : ((chain sampleNet).play sampleLocks ⟨sampleWorld, []⟩).isSome = true := rfl
  obtain ⟨c, hc⟩ := Option.isSome_iff_exists.1 hsome
  have hkeep : ∀ s, ∀ m ∈ sampleLocks, KeepsWiring sampleNet 3 s m := by
    simp [sampleLocks, sampleSetup, call, KeepsWiring, Call.KeepsWiring]
  have hrun := System.Run.of_play hkeep hc
  have hcfg : c = Option.get _ hsome := by simp [hc]
  refine ⟨c, hc, ?_, ?_⟩
  · have h77 := status_lock_lockstep sampleWorld_deployed sampleWorld_wired hrun 77
    refine (h77.2.2.2.2.2 ?_ ?_).trans ?_ <;> subst hcfg
    · exact trivial
    · rfl
    · rfl
  · have h78 := status_lock_lockstep sampleWorld_deployed sampleWorld_wired hrun 78
    have hp : (c.world.registry.commitments 78).status = .PENDING := by
      subst hcfg
      rfl
    have hrec : c.world.registry.commitments 78
        = ⟨8, 2000, .PENDING, .DCA, 10, 11, 30, 5⟩ := by
      subst hcfg
      rfl
    have := (h78.1 hp).1
    rw [hrec] at this
    exact this

end Zstrategy.Contracts
