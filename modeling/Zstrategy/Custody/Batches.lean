/-
A batch of registrations against the same registrations made one by one.
The batch checks the pair, the kind and the pause once and runs the loop
inside one lock; each single call checks them again and takes the lock
again. Nothing that a registration writes is read by those checks, so
between two rows the batch stands where the single calls stand, with the
lock set.

What a program makes of a state if it returns without handing out control is
its `returned` (Lib/Calls), and both sides of the theorem are computed
there: `returned_batch` takes the lock off the batch, `returned_registerOne`
off each single call, and `registerRows_inTurn` compares the loop in the
middle with the calls made in turn. Where one side reverts, so does the
other, at the same row, with nothing written.
-/
import Zstrategy.Contracts.Rules
import Zstrategy.Lib.Calls

namespace Zstrategy.Contracts

open Lib Code

variable {net : Net} {m : Msg} {w : World}

-- ================================================================ what is read

/-- What the checks of a registration read besides the hash's own record. -/
def World.setting (w : World) : ℕ × Bool × Bool × (UInt8 → Address) × Address :=
  (w.timestamp, w.registry.entered, w.registry.paused, w.registry.verifiers,
    w.registry.vault)

namespace CollateralVault

variable {v u t : Address} {h : Bytes32} {a : U256} {sender : Address}

instance setting_lockCollateral : (lockCollateral sender v h u t a).Keeps World.setting := by
  have hvault : ∀ f, (modify (World.onVault v f) : Contract Unit).Keeps World.setting :=
    fun f => .modify fun _ => rfl
  have hemit : ∀ e, (emit v e).Keeps World.setting := fun e => .modify fun _ => rfl
  unfold lockCollateral onlyRegistry subFree addLocked
  infer_instance

instance stays_lockCollateral : (lockCollateral sender v h u t a).Stays := by
  unfold lockCollateral onlyRegistry subFree addLocked emit
  infer_instance

end CollateralVault

namespace CommitmentRegistry

variable {tIn tOut : Address} {kind : CommitmentKind} {h : Bytes32} {r : CommitmentRecord}

/-- The vault is one of ours, so it is not outside code. -/
abbrev Ours (net : Net) (w : World) : Prop := net.isVault w.registry.vault = true

theorem stays_vaultLock {u t : Address} {a : U256} (hv : Ours net w) :
    (vaultLock net h u t a w).stays = true := by
  show ((if net.isVault w.registry.vault then
      CollateralVault.lockCollateral net.registry w.registry.vault h u t a
    else _ : Contract Unit) w).stays = true
  rw [if_pos hv]
  exact CollateralVault.stays_lockCollateral.stays w

instance setting_setRecord : (setRecord h r).Keeps World.setting :=
  .modify fun _ => rfl

instance setting_vaultLock {u t : Address} {a : U256} :
    (vaultLock net h u t a).Keeps World.setting := by
  unfold vaultLock
  infer_instance

instance setting_openCommitment : (openCommitment net h r).Keeps World.setting := by
  have hemit : ∀ e, (emit e).Keeps World.setting := fun e => .modify fun _ => rfl
  unfold openCommitment
  infer_instance

theorem stays_openCommitment (hv : Ours net w) : (openCommitment net h r w).stays = true := by
  refine Outcome.stays_bind rfl fun _ w' hset => ?_
  cases hset
  exact Outcome.stays_bind (stays_vaultLock hv) fun _ _ _ => rfl

-- ==================================================================== one row

/-- What a registration checks of the pair, the kind and the registry. -/
structure Opened (tIn tOut : Address) (kind : CommitmentKind) (w : World) : Prop where
  entered : w.registry.entered = false
  paused : w.registry.paused = false
  tokenIn : tIn ≠ 0
  tokenOut : tOut ≠ 0
  pair : tIn ≠ tOut
  verifier : w.registry.verifiers kind.toUInt8 ≠ 0

/-- `registerCommitment` of a row. -/
def registerOne (net : Net) (m : Msg) (tIn tOut : Address) (kind : CommitmentKind)
    (row : BatchRow) : Contract Unit :=
  registerCommitment net m row.1 tIn tOut row.2.1 row.2.2.1 row.2.2.2 kind

theorem returned_nonReentrant (body : Contract Unit) (w : World) :
    (nonReentrant body w).returned
      = if w.registry.entered = false then
          (body (w.setRegistryEntered true)).returned.map fun r =>
            ((), r.2.setRegistryEntered false)
        else none := by
  unfold nonReentrant
  rw [returned_read_bind, returned_require_bind]
  by_cases hfree : w.registry.entered = false
  · rw [if_pos hfree, if_pos hfree, returned_modify_bind, returned_bind,
      Option.map_eq_bind]
    rfl
  · rw [if_neg hfree, if_neg hfree]

theorem returned_whenNotPaused_bind (k : Unit → Contract Unit) (w : World) :
    ((whenNotPaused >>= k) w).returned
      = if w.registry.paused = false then (k () w).returned else none := by
  show ((require _ _ >>= k : Contract Unit) w).returned = _
  exact returned_require_bind k

/-- A single registration is the row between taking and giving the lock. -/
theorem returned_registerOne {row : BatchRow} (ho : Opened tIn tOut kind w) :
    (registerOne net m tIn tOut kind row w).returned
      = (registerRow net m tIn tOut kind row (w.setRegistryEntered true)).returned.map
          fun r => ((), r.2.setRegistryEntered false) := by
  have hpaused : (w.setRegistryEntered true).registry.paused = false := ho.paused
  have hverifier : (w.setRegistryEntered true).registry.verifiers kind.toUInt8 ≠ 0 :=
    ho.verifier
  unfold registerOne registerCommitment registerRow
  rw [returned_nonReentrant, if_pos ho.entered, returned_whenNotPaused_bind, if_pos hpaused]
  simp only [returned_read_bind, returned_require_bind, if_pos ho.tokenIn,
    if_pos ho.tokenOut, if_pos ho.pair, if_pos hverifier]

theorem opened_of_registerOne {row : BatchRow} {w' : World}
    (h : (registerOne net m tIn tOut kind row w).returned = some ((), w')) :
    Opened tIn tOut kind w := by
  apply of_returned h
  unfold registerOne registerCommitment
  rw [CommitmentRegistry.wp_nonReentrant]
  refine ⟨fun hfree => ?_, fun _ => trivial⟩
  rw [wp_bind, wp_whenNotPaused]
  refine ⟨fun hpaused => ?_, fun _ => trivial⟩
  simp only [wp_bind, wp_read]
  refine wp_require_any fun _ => wp_require_any fun hin => ?_
  refine wp_require_any fun hout => wp_require_any fun hpair => ?_
  refine wp_require_any fun _ => wp_require_any fun _ => ?_
  refine wp_require_any fun hverifier => wp_require_any fun _ => ?_
  exact Outcome.Sat.any fun _ _ => ⟨hfree, hpaused, hin, hout, hpair, hverifier⟩

-- ================================================================== the batch

variable {hs : List Bytes32} {sizes minOuts : List U256} {expiries : List UInt64}

theorem opened_of_batch {w' : World}
    (h : (registerCommitmentBatch net m hs tIn tOut sizes minOuts expiries kind w).returned
      = some ((), w')) : Opened tIn tOut kind w := by
  apply of_returned h
  unfold registerCommitmentBatch
  rw [CommitmentRegistry.wp_nonReentrant]
  refine ⟨fun hfree => ?_, fun _ => trivial⟩
  rw [wp_bind, wp_whenNotPaused]
  refine ⟨fun hpaused => ?_, fun _ => trivial⟩
  simp only [wp_bind, wp_read]
  refine wp_require_any fun _ => wp_require_any fun _ => ?_
  refine wp_require_any fun _ => wp_require_any fun _ => ?_
  refine wp_require_any fun hin => wp_require_any fun hout => ?_
  refine wp_require_any fun hpair => wp_require_any fun hverifier => ?_
  exact Outcome.Sat.any fun _ _ => ⟨hfree, hpaused, hin, hout, hpair, hverifier⟩

/-- Lengths as a batch wants them. -/
structure Fits (hs : List Bytes32) (sizes minOuts : List U256) (expiries : List UInt64) :
    Prop where
  some : 0 < hs.length
  few : hs.length ≤ 10
  sizes : sizes.length = hs.length
  minOuts : minOuts.length = hs.length
  expiries : expiries.length = hs.length

/-- A batch is its loop between taking and giving the lock. -/
theorem returned_batch (ho : Opened tIn tOut kind w) (hf : Fits hs sizes minOuts expiries) :
    (registerCommitmentBatch net m hs tIn tOut sizes minOuts expiries kind w).returned
      = (registerRows net m tIn tOut kind (batchRows hs sizes minOuts expiries)
          (w.setRegistryEntered true)).returned.map
          fun r => ((), r.2.setRegistryEntered false) := by
  have hpaused : (w.setRegistryEntered true).registry.paused = false := ho.paused
  have hverifier : (w.setRegistryEntered true).registry.verifiers kind.toUInt8 ≠ 0 :=
    ho.verifier
  have hcount : 0 < hs.length ∧ hs.length ≤ 10 := ⟨hf.some, hf.few⟩
  unfold registerCommitmentBatch
  rw [returned_nonReentrant, if_pos ho.entered, returned_whenNotPaused_bind, if_pos hpaused]
  simp only [returned_read_bind, returned_require_bind, if_pos hcount, if_pos hf.sizes,
    if_pos hf.minOuts, if_pos hf.expiries, if_pos ho.tokenIn, if_pos ho.tokenOut,
    if_pos ho.pair, if_pos hverifier]

instance setting_registerRow (row : BatchRow) :
    (registerRow net m tIn tOut kind row).Keeps World.setting := by
  unfold registerRow
  infer_instance

theorem Opened.of_setting {w' : World} (ho : Opened tIn tOut kind w)
    (h : w'.setting = w.setting) : Opened tIn tOut kind w' := by
  simp only [World.setting, Prod.mk.injEq] at h
  obtain ⟨-, hentered, hpaused, hverifiers, -⟩ := h
  exact ⟨hentered.trans ho.entered, hpaused.trans ho.paused, ho.tokenIn, ho.tokenOut, ho.pair,
    by rw [hverifiers]; exact ho.verifier⟩

theorem relock {b : Bool} (h : w.registry.entered = b) (b' : Bool) :
    (w.setRegistryEntered b').setRegistryEntered b = w := by
  subst h
  rfl

/-- The loop does what the single calls do. The induction is on the rows;
between two of them the loop stands where the calls do, with the lock set. -/
theorem registerRows_inTurn {rows : List BatchRow} (ho : Opened tIn tOut kind w) :
    (registerRows net m tIn tOut kind rows (w.setRegistryEntered true)).returned.map
        (fun r => r.2.setRegistryEntered false)
      = inTurn (registerOne net m tIn tOut kind) rows w := by
  induction rows generalizing w with
  | nil => exact congrArg some (relock ho.entered true)
  | cons row rows ih =>
      unfold registerRows inTurn
      rw [returned_bind, returned_registerOne ho]
      cases hrow : (registerRow net m tIn tOut kind row (w.setRegistryEntered true)).returned with
      | none => rfl
      | some r =>
          obtain ⟨u, s⟩ := r
          have hset : s.setting = (w.setRegistryEntered true).setting :=
            (setting_registerRow row).returned hrow
          have hlocked : s.registry.entered = true := congrArg (fun x => x.2.1) hset
          have hopened : Opened tIn tOut kind (s.setRegistryEntered false) := by
            apply ho.of_setting
            simp only [World.setting, Prod.mk.injEq] at hset ⊢
            exact ⟨hset.1, ho.entered.symm, hset.2.2⟩
          have hrest := ih hopened
          rw [relock hlocked false] at hrest
          exact hrest

theorem stays_registerRows {rows : List BatchRow} (hv : Ours net w) :
    (registerRows net m tIn tOut kind rows w).stays = true := by
  induction rows generalizing w with
  | nil => rfl
  | cons row rows ih =>
      unfold registerRows
      refine Outcome.stays_bind ?_ fun _ s hrow => ?_
      · show ((require _ _ >>= _ : Contract Unit) w).stays = true
        refine stays_require_bind fun _ => stays_require_bind fun _ => ?_
        refine stays_require_bind fun _ => stays_require_bind fun _ => ?_
        exact stays_openCommitment hv
      · have hset := (setting_registerRow row).returned (Outcome.returned_eq_some.2 hrow)
        apply ih
        have hvault : s.registry.vault = w.registry.vault :=
          congrArg (fun x => x.2.2.2.2) hset
        rw [Ours, hvault]
        exact hv

theorem batchRows_ne_nil (hf : Fits hs sizes minOuts expiries) :
    batchRows hs sizes minOuts expiries ≠ [] := by
  intro hnil
  have hlength : (batchRows hs sizes minOuts expiries).length = 0 := by rw [hnil]; rfl
  have hsome := hf.some
  rw [batchRows, List.length_zip, List.length_zip, List.length_zip, hf.sizes, hf.minOuts,
    hf.expiries] at hlength
  omega

/-- The batch function against the single function. -/
theorem batch_inTurn (hf : Fits hs sizes minOuts expiries) :
    (registerCommitmentBatch net m hs tIn tOut sizes minOuts expiries kind w).returned.map
        Prod.snd
      = inTurn (registerOne net m tIn tOut kind) (batchRows hs sizes minOuts expiries) w := by
  by_cases ho : Opened tIn tOut kind w
  · rw [returned_batch ho hf, ← registerRows_inTurn ho, Option.map_map]
    rfl
  · have hbatch : (registerCommitmentBatch net m hs tIn tOut sizes minOuts expiries kind
        w).returned = none := by
      rw [Option.eq_none_iff_forall_not_mem]
      intro r hr
      exact ho (opened_of_batch hr)
    have hone : ∀ row ∈ batchRows hs sizes minOuts expiries,
        (registerOne net m tIn tOut kind row w).returned = none := by
      intro row _
      rw [Option.eq_none_iff_forall_not_mem]
      intro r hr
      exact ho (opened_of_registerOne hr)
    rw [hbatch, inTurn_eq_none (batchRows_ne_nil hf) hone]
    rfl

theorem stays_batch (hv : Ours net w) :
    (registerCommitmentBatch net m hs tIn tOut sizes minOuts expiries kind w).stays = true := by
  have hlocked : Ours net (w.setRegistryEntered true) := hv
  unfold registerCommitmentBatch nonReentrant
  refine stays_require_bind fun _ => Outcome.stays_bind rfl fun _ s hset => ?_
  cases hset
  refine Outcome.stays_bind ?_ fun _ _ _ => rfl
  show ((require _ _ >>= _ : Contract Unit) (w.setRegistryEntered true)).stays = true
  refine stays_require_bind fun _ => stays_require_bind fun _ => stays_require_bind fun _ => ?_
  refine stays_require_bind fun _ => stays_require_bind fun _ => stays_require_bind fun _ => ?_
  refine stays_require_bind fun _ => stays_require_bind fun _ => stays_require_bind fun _ => ?_
  exact stays_registerRows hlocked

end CommitmentRegistry

-- ================================================================ the theorem

open CommitmentRegistry

/-- The registration of a row by itself. -/
def single (tIn tOut : Address) (kind : CommitmentKind) : BatchRow → Call
  | (h, size, minOut, expiry) => .registerCommitment h tIn tOut size minOut expiry kind

/-- The single registrations of a batch, in its order. -/
def singles (hs : List Bytes32) (tIn tOut : Address) (sizes minOuts : List U256)
    (expiries : List UInt64) (kind : CommitmentKind) : List Call :=
  (batchRows hs sizes minOuts expiries).map (single tIn tOut kind)

/-- A batch returns if and only if its registrations made one by one all
return, and leaves the same world: the registry, every vault and the log.
Otherwise it reverts, and the world is as before. -/
theorem batch_eq_singles {net : Net} {m : Msg} {w : World} {hs : List Bytes32}
    {tIn tOut : Address} {sizes minOuts : List U256} {expiries : List UInt64}
    {kind : CommitmentKind} (hv : net.isVault w.registry.vault = true)
    (hsome : 1 ≤ hs.length) (hfew : hs.length ≤ 10) (hsizes : sizes.length = hs.length)
    (hminOuts : minOuts.length = hs.length) (hexpiries : expiries.length = hs.length) :
    let batch := Call.registerCommitmentBatch hs tIn tOut sizes minOuts expiries kind
    let one_by_one := inTurn (dispatch net m) (singles hs tIn tOut sizes minOuts expiries kind) w
    inTurn (dispatch net m) [batch] w = one_by_one
      ∧ (one_by_one = none → ∀ stack, settle w stack (entry net (m, batch) w) = ⟨w, stack⟩) := by
  intro batch one_by_one
  have hf : Fits hs sizes minOuts expiries := ⟨hsome, hfew, hsizes, hminOuts, hexpiries⟩
  have hcall : ∀ s, (dispatch net m batch s).returned = if m.value.val = 0 then
      (registerCommitmentBatch net m hs tIn tOut sizes minOuts expiries kind s).returned
    else none := fun s => returned_require_bind _
  have hsingle : ∀ row s, (dispatch net m (single tIn tOut kind row) s).returned
      = if m.value.val = 0 then (registerOne net m tIn tOut kind row s).returned else none :=
    fun row s => returned_require_bind _
  have hbatch : inTurn (dispatch net m) [batch] w
      = (dispatch net m batch w).returned.map Prod.snd := by
    rw [Option.map_eq_bind]
    rfl
  have hsame : inTurn (dispatch net m) [batch] w = one_by_one := by
    rw [hbatch, hcall]
    by_cases hvalue : m.value.val = 0
    · rw [if_pos hvalue, batch_inTurn hf]
      refine (inTurn_map (fun row s => ?_) _ w).symm
      rw [hsingle, if_pos hvalue]
    · have hnone : ∀ call ∈ singles hs tIn tOut sizes minOuts expiries kind,
          (dispatch net m call w).returned = none := by
        intro call hcalls
        obtain ⟨row, -, rfl⟩ := List.mem_map.1 hcalls
        rw [hsingle, if_neg hvalue]
      rw [if_neg hvalue]
      refine (inTurn_eq_none ?_ hnone).symm
      exact mt List.map_eq_nil_iff.1 (batchRows_ne_nil hf)
  refine ⟨hsame, fun hnone stack => ?_⟩
  rw [← hsame, hbatch, Option.map_eq_none_iff] at hnone
  have hstays : (dispatch net m batch w).stays = true :=
    stays_require_bind fun _ => stays_batch hv
  obtain ⟨e, hrevert⟩ := Outcome.reverts_of_stays hstays hnone
  show settle w stack ((dispatch net m batch w).bind _) = _
  rw [hrevert]
  rfl

/-- User 8 has 100 of token 10 in the vault. -/
def sampleFunded : World := (chain sampleNet).endState sampleSetup sampleWorld

/-- The deposit covers the first two rows and not the third. -/
theorem batch_eq_singles_sample :
    let user : Msg := ⟨8, 0, 1, 1⟩
    let two := Call.registerCommitmentBatch [77, 78] 10 11 [60, 40] [5, 5] [2000, 3000] .DCA
    let three := Call.registerCommitmentBatch [77, 78, 79] 10 11 [60, 40, 1] [5, 5, 0]
      [2000, 3000, 9000] .DCA
    (inTurn (dispatch sampleNet user) [two] sampleFunded).isSome
      ∧ inTurn (dispatch sampleNet user) [two] sampleFunded
        = inTurn (dispatch sampleNet user)
          (singles [77, 78] 10 11 [60, 40] [5, 5] [2000, 3000] .DCA) sampleFunded
      ∧ settle sampleFunded [] (entry sampleNet (user, three) sampleFunded)
        = ⟨sampleFunded, []⟩ := by
  intro user two three
  have hvault : sampleNet.isVault sampleFunded.registry.vault = true := by decide +kernel
  have hthird : inTurn (dispatch sampleNet user)
      (singles [77, 78, 79] 10 11 [60, 40, 1] [5, 5, 0] [2000, 3000, 9000] .DCA) sampleFunded
        = none := by
    rw [← Option.isNone_iff_eq_none]
    decide +kernel
  have htwo := @batch_eq_singles sampleNet user sampleFunded [77, 78] 10 11 [60, 40] [5, 5]
    [2000, 3000] .DCA hvault (by decide) (by decide) rfl rfl rfl
  have hthree := @batch_eq_singles sampleNet user sampleFunded [77, 78, 79] 10 11 [60, 40, 1]
    [5, 5, 0] [2000, 3000, 9000] .DCA hvault (by decide) (by decide) rfl rfl rfl
  exact ⟨by decide +kernel, htwo.1, hthree.2 hthird []⟩

end Zstrategy.Contracts
