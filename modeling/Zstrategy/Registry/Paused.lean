/-
The pause. From a point where the registry is paused, and as long as the
guardian does not lift the pause, no order is opened and none is executed,
whatever is called and re-entered: a commitment stays as it is, or it was
pending and leaves by cancellation or expiry.

The run starts between transactions. A pause that comes while a guarded
function is waiting does not stop that function: it checked before.

The relation of the run is between two points with the pause on in both; its
step lemmas go along the functions, where `whenNotPaused` ends the two that
would open or execute before they write anything.
-/
import Zstrategy.Registry.Sides

namespace Zstrategy.Contracts

open Lib Code

variable {net : Net} {w w' s : World}

-- ================================================================= what may happen

/-- Whether the registry is paused, and its records. -/
def World.orders (w : World) : Bool × (Bytes32 → CommitmentRecord) :=
  (w.registry.paused, w.registry.commitments)

instance : OnRegistry World.orders := ⟨fun _ _ h _ => by unfold World.orders; rw [h]⟩

/-- A record stays, or a pending one is cancelled or expires. -/
def CommitmentRecord.Leaves (c c' : CommitmentRecord) : Prop :=
  c' = c ∨ c.status = .PENDING
    ∧ (c' = { c with status := .CANCELLED } ∨ c' = { c with status := .EXPIRED })

theorem CommitmentRecord.Leaves.trans {c c' c'' : CommitmentRecord} (h : c.Leaves c')
    (h' : c'.Leaves c'') : c.Leaves c'' := by
  rcases h with rfl | ⟨hpend, hc'⟩
  · exact h'
  · rcases h' with rfl | ⟨hpend', -⟩
    · exact Or.inr ⟨hpend, hc'⟩
    · rcases hc' with rfl | rfl
      · cases hpend'
      · cases hpend'

/-- Every record does. -/
def OnlyLeave (x y : Bool × (Bytes32 → CommitmentRecord)) : Prop :=
  ∀ h, (x.2 h).Leaves (y.2 h)

theorem OnlyLeave.refl (x : Bool × (Bytes32 → CommitmentRecord)) : OnlyLeave x x :=
  fun _ => Or.inl rfl

theorem OnlyLeave.trans {x y z : Bool × (Bytes32 → CommitmentRecord)} (h : OnlyLeave x y)
    (h' : OnlyLeave y z) : OnlyLeave x z :=
  fun c => (h c).trans (h' c)

def pausedRely (net : Net) : Rely World Request Reply :=
  (chain net).rely (fun w => w.orders.1 = true) fun w w' => OnlyLeave w.orders w'.orders

/-- A check that may fail: the failing side owes nothing. -/
theorem paused_check {p q : Prop} {e : String} (h : p → q) :
    (p → q) ∧ (¬p → (pausedRely net).err e) :=
  ⟨h, fun _ => trivial⟩

/-- A point of a call that started in `s`. -/
def PausedAt (s w : World) : Prop := w.orders.1 = true ∧ OnlyLeave s.orders w.orders

theorem PausedAt.frame {α : Type} {c : Contract α} [hc : c.Frames World.orders]
    (h : PausedAt s w) : c.wp (pausedRely net) (fun _ w' => PausedAt s w') w :=
  hc.rely (S := chain net) (I := fun x => x.1 = true) (R := OnlyLeave)
    (fun _ _ _ => OnlyLeave.trans) h.2 h.1

/-- An exit of a pending order. -/
theorem PausedAt.close (h : PausedAt s w) {x : Bytes32} {st : CommitmentStatus}
    (hpend : (w.registry.commitments x).status = .PENDING) (hst : st = .CANCELLED ∨ st = .EXPIRED) :
    PausedAt s (w.setRecord x { w.registry.commitments x with status := st }) := by
  refine ⟨h.1, h.2.trans fun y => ?_⟩
  by_cases hy : y = x
  · subst hy
    refine Or.inr ⟨hpend, ?_⟩
    rcases hst with rfl | rfl
    · exact Or.inl (World.commitments_setRecord ..)
    · exact Or.inr (World.commitments_setRecord ..)
  · exact Or.inl (Function.update_of_ne hy ..)

-- ================================================================ the functions

namespace CommitmentRegistry

variable {m : Msg} {h n : Bytes32}

theorem nonReentrant_paused {body : Contract Unit} (hw : PausedAt s w)
    (hbody : ∀ w', PausedAt s w' → body.wp (pausedRely net) (fun _ w'' => PausedAt s w'') w') :
    (nonReentrant body).wp (pausedRely net) (fun _ w' => PausedAt s w') w := by
  rw [wp_nonReentrant]
  refine paused_check fun _ => wp_mono (hbody _ hw) ?_
  exact fun _ _ => id

/-- What asks for the pause to be lifted goes no further. -/
theorem whenNotPaused_paused {rest : Unit → Contract Unit} {Q : Unit → World → Prop}
    (hw : PausedAt s w) : (whenNotPaused >>= rest).wp (pausedRely net) Q w := by
  rw [wp_bind, wp_whenNotPaused]
  refine paused_check fun hfree => ?_
  rw [show w.registry.paused = true from hw.1] at hfree
  nomatch hfree

theorem cancelCommitment_paused (hw : PausedAt s w) :
    (cancelCommitment net m h n).wp (pausedRely net) (fun _ w' => PausedAt s w') w := by
  unfold cancelCommitment
  refine nonReentrant_paused hw fun w hw => ?_
  simp only [wp_bind, wp_read, wp_require, wp_spend, wp_setStatus, wp_emit]
  refine paused_check fun _ => paused_check fun hpend => paused_check fun _ => ?_
  have hspent : PausedAt s (w.spend n) := hw
  refine wp_mono (hspent.close hpend (Or.inl rfl)).frame ?_
  exact fun _ _ => id

theorem sweepAll_paused {hs : List Bytes32} (hw : PausedAt s w) :
    (sweepAll net hs).wp (pausedRely net) (fun _ w' => PausedAt s w') w := by
  induction hs generalizing w with
  | nil => exact hw
  | cons h hs ih =>
      rw [sweepAll, wp_bind]
      unfold sweepOne
      simp only [wp_bind, wp_read, wp_ite, wp_setStatus, wp_pure, wp_emit]
      refine ⟨fun hdue => ?_, fun _ => ih hw⟩
      refine wp_mono (hw.close hdue.1 (Or.inr rfl)).frame ?_
      intro _ w' hw'
      exact ih hw'

end CommitmentRegistry

open CommitmentRegistry

-- ==================================================================== the chain

theorem nonpayable_paused {m : Msg} {body : Contract Unit} {Q : Unit → World → Prop}
    (hbody : body.wp (pausedRely net) Q w) : (nonpayable m body).wp (pausedRely net) Q w := by
  unfold nonpayable
  simp only [wp_bind, wp_require]
  exact paused_check fun _ => hbody

/-- A setter other than `unpause`. -/
theorem setter_paused {call : Call} {g : CommitmentRegistry → CommitmentRegistry}
    {events : List RegistryEvent} (hcall : call.setter = some g) (hne : call ≠ .unpause)
    (hw : PausedAt s w) : PausedAt s (w.set g events) := by
  obtain ⟨hpaused, hleave⟩ := hw
  have hkeep : (g w.registry).paused = true ∧ (g w.registry).commitments
      = w.registry.commitments := by
    cases call with
    | unpause => exact absurd rfl hne
    | pause => cases hcall; exact ⟨rfl, rfl⟩
    | setDEXAdapter | setGasVault | setCollateralVault | setGuardian | setPriceFeed
    | setOracleStaleness | setVerifier => cases hcall; exact ⟨hpaused, rfl⟩
    | _ => cases hcall
  refine ⟨hkeep.1, ?_⟩
  have horders : (w.set g events).orders.2 = w.orders.2 := hkeep.2
  intro h
  rw [horders]
  exact hleave h

theorem dispatch_paused {m : Msg} {call : Call} (hne : call ≠ .unpause) (hw : PausedAt s w) :
    (dispatch net m call).wp (pausedRely net) (fun _ w' => PausedAt s w') w := by
  by_cases hcall : call.onRegistry = false
  · have hframes : (dispatch net m call).Frames World.orders := off_dispatch m hcall
    exact hw.frame
  · cases call with
    | registerCommitment | registerCommitmentBatch | executeCommitment =>
        apply nonpayable_paused
        exact nonReentrant_paused hw fun _ hw' => whenNotPaused_paused hw'
    | cancelCommitment => exact nonpayable_paused (cancelCommitment_paused hw)
    | sweepExpired => exact nonpayable_paused (nonReentrant_paused hw fun _ => sweepAll_paused)
    | pause | unpause | setDEXAdapter | setGasVault | setCollateralVault | setGuardian
    | setPriceFeed | setOracleStaleness | setVerifier =>
        exact dispatch_setter (fun _ => trivial) rfl fun _ => setter_paused rfl hne hw
    | _ => exact absurd rfl hcall

/-- Nobody lifts the pause. -/
def NoUnpause : World → ChainMove → Prop
  | _, .enter (_, call) => call ≠ .unpause
  | _, _ => True

theorem sound_paused : (chain net).Sound NoUnpause (fun w => w.orders.1 = true)
    fun w w' => OnlyLeave w.orders w'.orders := by
  refine ⟨fun _ => OnlyLeave.refl _, fun _ _ _ => OnlyLeave.trans, ?_, ?_⟩
  · intro i w _ hne hw
    have hcalled : (dispatch net i.1 i.2).wp (pausedRely net) (fun _ w' => PausedAt w w') w :=
      dispatch_paused hne ⟨hw, OnlyLeave.refl _⟩
    exact (wp_bind ..).2 (wp_mono hcalled fun _ _ => id)
  · intro e w w' _ hw he
    obtain ⟨hregistry, -⟩ := outside_off he
    have hsame : w'.orders = w.orders := by
      unfold World.orders
      rw [hregistry]
    rw [hsame]
    exact ⟨hw, OnlyLeave.refl _⟩

/-- While the pause lasts, every order stays or leaves by cancellation or
expiry. The run starts and ends between transactions, so that no execution
is under way when it starts. -/
theorem paused_orders_only_leave (hpaused : w.registry.paused = true)
    (hrun : (chain net).Run NoUnpause ⟨w, []⟩ ⟨w', []⟩) :
    w'.registry.paused = true
      ∧ ∀ h, (w.registry.commitments h).Leaves (w'.registry.commitments h) :=
  ⟨hrun.inv sound_paused hpaused, hrun.rel sound_paused hpaused⟩

-- ================================================================== an example

/-- The sample deployment, paused with one order pending. -/
def pausedSample : World :=
  (chain sampleNet).endState (sampleSetup
    ++ [call 8 (.registerCommitment 99 10 11 60 1 2000 .ORDER_FILL), call 7 .pause]) sampleWorld

theorem paused_orders_only_leave_sample :
    ∃ w', (chain sampleNet).Run NoUnpause ⟨pausedSample, []⟩ ⟨w', []⟩
      ∧ (w'.registry.commitments 99).status = .CANCELLED ∧ w'.registry.paused = true := by
  have hrun : (chain sampleNet).Run NoUnpause ⟨pausedSample, []⟩
      ⟨(chain sampleNet).endState [call 8 (.cancelCommitment 99 5)] pausedSample, []⟩ :=
    .of_endState (fun _ m hm => by
      rw [List.mem_singleton.1 hm]
      exact fun h => nomatch h) rfl
  exact ⟨_, hrun, rfl, (paused_orders_only_leave rfl hrun).1⟩

end Zstrategy.Contracts
