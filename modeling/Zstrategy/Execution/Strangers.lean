/-
What one account's transactions do to another account's order. A stranger
registers, cancels and sweeps; each call that returns keeps `Agree` with
the state before, unless it registers `h` or spends the nullifier in
question (`Transaction.agree`), and one that does makes the owner's call
revert for good.

The proofs go along the code, with a lemma `…_spares` for each small
program: from a state that agrees with `s` it goes to one that does. The
induction over a sequence of transactions is in Interference.lean.
-/
import Zstrategy.Custody.Settlement
import Zstrategy.Execution.Alike

namespace Zstrategy.Contracts

open Lib Code

variable {net : Net} {u : Address} {h n : Bytes32} {N : Bytes32 → Prop} {s t w : World}

-- ============================================================ the stranger

/-- The order at `h` that the stranger leaves: not yet registered, or
pending, live and owned by `u`. -/
def Spared (u : Address) (h : Bytes32) (w : World) : Prop :=
  (w.registry.commitments h).status = .NONE
    ∨ ((w.registry.commitments h).status = .PENDING
      ∧ (w.registry.commitments h).owner = u
      ∧ w.timestamp ≤ (w.registry.commitments h).expiry.toNat)

theorem Spared.agree (hs : Spared u h s) (hst : Agree u h N s t) : Spared u h t := by
  have htime : t.timestamp = s.timestamp := hst.shown World.timestamp fun _ => rfl
  unfold Spared
  rw [hst.record, htime]
  exact hs

/-- A stranger cannot cancel `h`. -/
theorem Spared.not_cancelled {m : Msg} {k : Bytes32} (hspared : Spared u h w) (hm : m.sender ≠ u)
    (howner : (w.registry.commitments k).owner = m.sender)
    (hpending : (w.registry.commitments k).status = .PENDING) : k ≠ h := by
  intro hk
  subst hk
  rcases hspared with hnone | ⟨-, hu, -⟩
  · rw [hpending] at hnone
    cases hnone
  · exact hm (howner.symm.trans hu)

/-- A check, where any reverting is allowed. -/
theorem passed {p q : Prop} {e : String} (hpq : p → q) :
    (p → q) ∧ (¬p → (Rely.silent : Rely World Request Reply).err e) :=
  ⟨hpq, fun _ => trivial⟩

theorem asks_silent {req : Request} {P : Reply → World → Prop} (hP : ∀ x, P x w) :
    Asks Rely.silent req P w := by
  refine ⟨trivial, ?_⟩
  intro w' x _ hsame _
  cases hsame
  exact hP x

/-- The stranger's code keeps the agreement with the state before. -/
abbrev Spares (u : Address) (h : Bytes32) (N : Bytes32 → Prop) (s : World) (c : Contract Unit)
    (w : World) : Prop :=
  c.wp Rely.silent (fun _ w' => Agree u h N s w') w

namespace CommitmentRegistry

variable {k : Bytes32} {a token : Address} {x : U256}

theorem nonReentrant_spares {body : Contract Unit} (hs : Agree u h N s w)
    (hbody : Spares u h N (s.setRegistryEntered true) body (w.setRegistryEntered true)) :
    Spares u h N s (nonReentrant body) w := by
  show Code.wp _ _ _ _
  rw [wp_nonReentrant]
  refine passed fun hfree => ?_
  have hentered : s.registry.entered = false :=
    (hs.shown (fun w => w.registry.entered) fun _ => rfl).symm.trans hfree
  refine wp_mono hbody fun _ w' hw' => ?_
  have hback := hw'.setRegistryEntered false
  rw [show (s.setRegistryEntered true).setRegistryEntered false = s by
    obtain ⟨_, ⟨⟩⟩ := s
    cases hentered
    rfl] at hback
  exact hback

theorem vaultLock_spares (hs : Agree u h N s w) (hk : k ≠ h) (ha : a ≠ u) :
    Spares u h N s (vaultLock net k a token x) w := by
  show Code.wp _ _ _ _
  unfold vaultLock CollateralVault.lockCollateral
  simp only [wp_bind, wp_read, wp_ite, wp_ask_iff, wp_pure, wp_require,
    CollateralVault.wp_onlyRegistry, CollateralVault.wp_subFree, CollateralVault.wp_addLocked,
    CollateralVault.wp_emit]
  constructor
  · refine fun _ => passed fun _ => passed fun _ => passed fun _ => passed fun _ => ?_
    exact ((hs.setFree_right _ a token fun h => absurd h ha).setLocked_right hk _ token _).note _
  · exact fun _ => asks_silent fun _ => hs

theorem vaultReturn_spares (hs : Agree u h N s w) (hk : k ≠ h) :
    Spares u h N s (vaultReturn net k a token x) w := by
  show Code.wp _ _ _ _
  unfold vaultReturn CollateralVault.returnCollateral
  simp only [wp_bind, wp_read, wp_ite, wp_ask_iff, wp_pure, wp_require,
    CollateralVault.wp_onlyRegistry, CollateralVault.wp_addFree, CollateralVault.wp_subLocked,
    CollateralVault.wp_emit, World.freeBalance_setLocked]
  constructor
  · refine fun _ => passed fun _ => passed fun _ => passed fun _ => passed fun _ => ?_
    refine ((hs.setLocked_right hk _ token _).setFree_right _ a token ?_).note _
    intro hu
    rw [World.freeBalance_setLocked, hu]
    exact Nat.le_add_right _ _
  · exact fun _ => asks_silent fun _ => hs

theorem openCommitment_spares {r : CommitmentRecord} (hs : Agree u h N s w) (hk : k ≠ h)
    (hr : r.owner ≠ u) : Spares u h N s (openCommitment net k r) w := by
  show Code.wp _ _ _ _
  unfold openCommitment
  simp only [wp_bind, wp_setRecord, wp_emit]
  exact wp_mono (vaultLock_spares (hs.setRecord_right hk r) hk hr) fun _ _ hw' => hw'.note _

variable {m : Msg} {tIn tOut : Address} {size minOut : U256} {expiry : UInt64}
  {kind : CommitmentKind}

theorem registerCommitment_spares (hs : Agree u h N s w) (hm : m.sender ≠ u) (hk : k ≠ h) :
    Spares u h N s (registerCommitment net m k tIn tOut size minOut expiry kind) w := by
  unfold registerCommitment
  refine nonReentrant_spares hs ?_
  replace hs := hs.setRegistryEntered true
  show Code.wp _ _ _ _
  simp only [wp_bind, wp_whenNotPaused, wp_read, wp_require]
  refine passed fun _ => passed fun _ => passed fun _ => passed fun _ => passed fun _ =>
    passed fun _ => passed fun _ => passed fun _ => passed fun _ => ?_
  exact openCommitment_spares hs hk hm

theorem registerRows_spares {rows : List BatchRow} (hs : Agree u h N s w)
    (hm : m.sender ≠ u) (hrows : ∀ row ∈ rows, row.1 ≠ h) :
    Spares u h N s (registerRows net m tIn tOut kind rows) w := by
  induction rows generalizing w with
  | nil => exact hs
  | cons row rows ih =>
      obtain ⟨k, size, minOut, expiry⟩ := row
      show Code.wp _ _ _ _
      rw [registerRows, registerRow]
      simp only [wp_bind, wp_read, wp_require]
      refine passed fun _ => passed fun _ => passed fun _ => passed fun _ => ?_
      have hk : k ≠ h := hrows _ List.mem_cons_self
      refine wp_mono (openCommitment_spares hs hk hm) fun _ w' hw' => ?_
      exact ih hw' fun row hrow => hrows row (List.mem_cons_of_mem _ hrow)

theorem registerCommitmentBatch_spares {hashes : List Bytes32} {sizes minOuts : List U256}
    {expiries : List UInt64} (hs : Agree u h N s w) (hm : m.sender ≠ u)
    (hk : ∀ row ∈ batchRows hashes sizes minOuts expiries, row.1 ≠ h) :
    Spares u h N s
      (registerCommitmentBatch net m hashes tIn tOut sizes minOuts expiries kind) w := by
  unfold registerCommitmentBatch
  refine nonReentrant_spares hs ?_
  replace hs := hs.setRegistryEntered true
  show Code.wp _ _ _ _
  simp only [wp_bind, wp_whenNotPaused, wp_read, wp_require]
  refine passed fun _ => passed fun _ => passed fun _ => passed fun _ => passed fun _ =>
    passed fun _ => passed fun _ => passed fun _ => passed fun _ => ?_
  exact registerRows_spares hs hm hk

theorem cancelCommitment_spares (hs : Agree u h N s w) (hspared : Spared u h s)
    (hm : m.sender ≠ u) (hn : ¬N n) :
    Spares u h N s (cancelCommitment net m k n) w := by
  unfold cancelCommitment
  refine nonReentrant_spares hs ?_
  replace hs := hs.setRegistryEntered true
  replace hspared : Spared u h (w.setRegistryEntered true) :=
    Spared.agree (s := s.setRegistryEntered true) hspared hs
  show Code.wp _ _ _ _
  simp only [wp_bind, wp_read, wp_require, wp_spend, wp_setStatus,
    World.commitments_setRecord]
  refine passed fun howner => passed fun hpending => passed fun _ => ?_
  have hk : k ≠ h := hspared.not_cancelled hm howner hpending
  refine wp_mono (vaultReturn_spares ((hs.spend_right hn).setRecord_right hk _) hk) ?_
  exact fun _ w' hw' => hw'.note _

theorem sweepOne_spares (hs : Agree u h N s w) (hspared : Spared u h s) :
    Spares u h N s (sweepOne net k) w := by
  show Code.wp _ _ _ _
  unfold sweepOne
  simp only [wp_bind, wp_read, wp_ite, wp_setStatus, wp_pure]
  refine ⟨fun hdue => ?_, fun _ => hs⟩
  have hk : k ≠ h := by
    intro hk
    subst hk
    rcases hspared.agree hs with hnone | ⟨-, -, hlive⟩
    · rw [hdue.1] at hnone
      cases hnone
    · exact absurd hdue.2 (by omega)
  refine wp_mono (vaultReturn_spares (hs.setRecord_right hk _) hk) ?_
  exact fun _ w' hw' => hw'.note _

theorem sweepAll_spares {hashes : List Bytes32} (hs : Agree u h N s w)
    (hspared : Spared u h s) : Spares u h N s (sweepAll net hashes) w := by
  induction hashes generalizing w with
  | nil => exact hs
  | cons k hashes ih =>
      show Code.wp _ _ _ _
      rw [sweepAll, wp_bind]
      exact wp_mono (sweepOne_spares hs hspared) fun _ w' hw' => ih hw'

theorem sweepExpired_spares {hashes : List Bytes32} (hs : Agree u h N s w)
    (hspared : Spared u h s) : Spares u h N s (sweepExpired net hashes) w := by
  unfold sweepExpired
  have hspared' : Spared u h (s.setRegistryEntered true) := hspared
  exact nonReentrant_spares hs (sweepAll_spares (hs.setRegistryEntered true) hspared')

end CommitmentRegistry

-- =============================================================== transactions

/-- The calls open to everybody: to register, to cancel and to sweep. -/
def Call.Public : Call → Prop
  | .registerCommitment .. | .registerCommitmentBatch .. | .cancelCommitment ..
  | .sweepExpired .. => True
  | _ => False

/-- The call settles a commitment with `n`. -/
def Call.Spends (n : Bytes32) (call : Call) : Prop :=
  ∃ h, call.settles = some (h, n)

/-- What called code does before it replies; time stands still. -/
def Outside.inside (net : Net) (e : Outside) (w : World) : Option World :=
  if e.idle then none else e.effect net w

/-- The state after a call that returns, under a script for the code it
calls out to. -/
def runCall (net : Net) (script : List (Reply × List Outside)) (i : Msg × Call) (w : World) :
    Option World :=
  ((entry net i w).play (Outside.inside net) script).map Prod.snd

/-- A transaction, with what the code it calls out to replies. -/
structure Transaction where
  msg : Msg
  call : Call
  replies : List Reply

namespace Transaction

/-- The state after it; `none` if it reverts. -/
def outcome (net : Net) (tx : Transaction) (w : World) : Option World :=
  runCall net (Outcome.quiet Outside tx.replies) (tx.msg, tx.call) w

/-- A transaction that reverts leaves the state. -/
def apply (net : Net) (tx : Transaction) (w : World) : World :=
  (tx.outcome net w).getD w

def applyAll (net : Net) : List Transaction → World → World
  | [], w => w
  | tx :: txs, w => applyAll net txs (tx.apply net w)

/-- One of the transactions returns, and its call meets `p`. -/
def Goes (net : Net) (p : Call → Prop) : List Transaction → World → Prop
  | [], _ => False
  | tx :: txs, w => (p tx.call ∧ (tx.outcome net w).isSome) ∨ Goes net p txs (tx.apply net w)

end Transaction

section Steps

variable {m : Msg} {call : Call}

/-- A stranger's call that returns spares what it neither registers nor
spends. -/
theorem dispatch_spares (hs : Agree u h N s w) (hspared : Spared u h s) (hcall : call.Public)
    (hm : m.sender ≠ u) (hh : ¬call.Registers h) (hn : ∀ n, call.Spends n → ¬N n) :
    Spares u h N s (dispatch net m call) w := by
  have hpay : ∀ {body : Contract Unit}, Spares u h N s body w →
      Spares u h N s (nonpayable m body) w := by
    intro body hbody
    show Code.wp _ _ _ _
    unfold nonpayable
    rw [wp_bind, wp_require]
    exact passed fun _ => hbody
  unfold Call.Public at hcall
  cases call with
  | registerCommitment k tIn tOut size minOut expiry kind =>
      exact hpay (CommitmentRegistry.registerCommitment_spares hs hm hh)
  | registerCommitmentBatch hashes tIn tOut sizes minOuts expiries kind =>
      refine hpay (CommitmentRegistry.registerCommitmentBatch_spares hs hm ?_)
      intro row hrow heq
      exact hh ⟨row, hrow, heq⟩
  | cancelCommitment k n =>
      exact hpay (CommitmentRegistry.cancelCommitment_spares hs hspared hm (hn n ⟨k, rfl⟩))
  | sweepExpired hashes => exact hpay (CommitmentRegistry.sweepExpired_spares hs hspared)
  | _ => exact hcall.elim

theorem Transaction.agree {tx : Transaction} {w' : World} (hs : Agree u h N s w)
    (hspared : Spared u h s) (hcall : tx.call.Public) (hm : tx.msg.sender ≠ u)
    (hh : ¬tx.call.Registers h) (hn : ∀ n, tx.call.Spends n → ¬N n)
    (hout : tx.outcome net w = some w') : Agree u h N s w' := by
  obtain ⟨r, hplay, rfl⟩ := Option.map_eq_some_iff.1 hout
  have hsat : (entry net (tx.msg, tx.call)).wp Rely.silent
      (fun _ w' => Agree u h N s w') w := by
    unfold entry
    rw [wp_bind]
    refine wp_mono (dispatch_spares hs hspared hcall hm hh hn) fun _ w' hw' => ?_
    exact ⟨hw'.outline, hw'.record, hw'.nullifiers, hw'.locked, hw'.free⟩
  exact Outcome.Sat.play_quiet hsat hplay

end Steps

end Zstrategy.Contracts
