/-
The sweep as an operation on a set of hashes. `sweepExpired` runs through a
list that anybody may choose; what it does to the state is said here
without the list, for the finite set of the hashes that are due
(`expireAll`). A sweep of a list is `expireAll` of the listed hashes that
are due, and `expireAll` of one set after another is that of their union,
so repeating, reordering and splitting the list make no difference.

The loop invariant is that the vault covers every hash that is due and that
what it owes in the tokens concerned is less than a word. Giving collateral
back keeps the debt as it is, so no credit in the loop can overflow.

# Two forms of one state

The loop produces the state entry by entry (`swept`, along a list), the
statement speaks of it as a whole (`expireAll`, for a set). `same_swept`
says that the two are the same but for the order of the events. So the
induction over the program is done on lists, where the code is, and the
algebra (union, repetition, splitting) on sets, where it is trivial.
-/
import Zstrategy.Custody.Exit

namespace Zstrategy.Contracts

open Lib Code

open Function (update)

variable {net : Net} {v : Address} {w w' : World} {h : Bytes32} {m : Msg}

-- ================================================================= the operation

namespace World

/-- `h` is pending and past its expiry. -/
def Due (w : World) (h : Bytes32) : Prop :=
  (w.registry.commitments h).status = .PENDING
    ∧ (w.registry.commitments h).expiry.toNat < w.timestamp

instance decidableDue (w : World) (h : Bytes32) : Decidable (w.Due h) :=
  inferInstanceAs (Decidable (_ ∧ _))

end World

/-- What `u` gets back in the token `t`. -/
def CommitmentRecord.refund (r : CommitmentRecord) (u t : Address) : ℕ :=
  if r.owner = u ∧ r.tokenIn = t then r.size.val else 0

/-- The hashes of `S` expire. -/
def expireRecords (S : Finset Bytes32) (f : Bytes32 → CommitmentRecord) :
    Bytes32 → CommitmentRecord :=
  fun h => if h ∈ S then (f h).close .EXPIRED else f h

/-- The vault gives back the collateral of the hashes of `S`. -/
def CollateralVault.refundAll (S : Finset Bytes32) (f : Bytes32 → CommitmentRecord)
    (V : CollateralVault) : CollateralVault :=
  { V with
    freeBalance := fun u t => V.freeBalance u t + ∑ h ∈ S, (f h).refund u t
    lockedBalance := fun h t =>
      if h ∈ S ∧ t = (f h).tokenIn then V.lockedBalance h t - (f h).size.val
      else V.lockedBalance h t }

namespace World

/-- Both, with the vault at `v`. -/
def expireAll (v : Address) (S : Finset Bytes32) (w : World) : World :=
  { w with
    registry := { w.registry with commitments := expireRecords S w.registry.commitments }
    vaults := update w.vaults v ((w.vaults v).refundAll S w.registry.commitments) }

/-- What is logged when `h` expires. -/
def expireEvents (v : Address) (w : World) (h : Bytes32) : List Event :=
  let r := w.registry.commitments h
  [.vault v (.CollateralReturned h r.owner r.tokenIn r.size),
    .registry (.CommitmentExpired h r.owner)]

/-- `expireAll` of a list without repetitions, with its log. -/
def swept (v : Address) (hs : List Bytes32) (w : World) : World :=
  { w.expireAll v hs.toFinset with log := w.log ++ hs.flatMap (w.expireEvents v) }

/-- The same storage, balances, time and outside, whatever was logged. -/
def Same (w w' : World) : Prop :=
  { w with log := [], receipts := [] } = { w' with log := [], receipts := [] }

end World

-- =================================================================== its algebra

section algebra

variable {S T : Finset Bytes32} {f : Bytes32 → CommitmentRecord}

/-- A hash of the set is closed. -/
theorem expireRecords_of_mem (hh : h ∈ S) : expireRecords S f h = (f h).close .EXPIRED :=
  if_pos hh

/-- Any other keeps its record. -/
theorem expireRecords_of_notMem (hh : h ∉ S) : expireRecords S f h = f h :=
  if_neg hh

/-- What an expiry gives back does not depend on the status. -/
theorem refund_expireRecords (u t : Address) :
    (expireRecords S f h).refund u t = (f h).refund u t := by
  unfold expireRecords
  split <;> rfl

/-- One set after another is their union. -/
theorem expireRecords_union (hST : Disjoint S T) :
    expireRecords T (expireRecords S f) = expireRecords (S ∪ T) f := by
  funext h
  by_cases hT : h ∈ T
  · have hS : h ∉ S := fun hS => Finset.disjoint_left.1 hST hS hT
    rw [expireRecords_of_mem hT, expireRecords_of_notMem hS,
      expireRecords_of_mem (Finset.mem_union_right S hT)]
  · rw [expireRecords_of_notMem hT]
    unfold expireRecords
    simp only [Finset.mem_union, hT, or_false]

/-- Likewise for what is given back. -/
theorem CollateralVault.refundAll_union (hST : Disjoint S T) (V : CollateralVault) :
    (V.refundAll S f).refundAll T (expireRecords S f) = V.refundAll (S ∪ T) f := by
  have hfree : ∀ u t, V.freeBalance u t + ∑ h ∈ S, (f h).refund u t
        + ∑ h ∈ T, (expireRecords S f h).refund u t
      = V.freeBalance u t + ∑ h ∈ S ∪ T, (f h).refund u t := by
    intro u t
    simp only [refund_expireRecords]
    rw [Finset.sum_union hST, add_assoc]
  have hlocked : ∀ h t, (if h ∈ T ∧ t = (expireRecords S f h).tokenIn then
        (V.refundAll S f).lockedBalance h t - (expireRecords S f h).size.val
      else (V.refundAll S f).lockedBalance h t) = (V.refundAll (S ∪ T) f).lockedBalance h t := by
    intro h t
    unfold CollateralVault.refundAll
    by_cases hT : h ∈ T
    · have hS : h ∉ S := fun hS => Finset.disjoint_left.1 hST hS hT
      simp [hT, hS, expireRecords_of_notMem hS]
    · simp [hT]
  unfold CollateralVault.refundAll at hlocked ⊢
  simp only [hfree, hlocked]

/-- The empty set changes nothing. -/
theorem World.expireAll_empty (v : Address) (w : World) : w.expireAll v ∅ = w := by
  have hrecords : expireRecords ∅ w.registry.commitments = w.registry.commitments := rfl
  have hvault : (w.vaults v).refundAll ∅ w.registry.commitments = w.vaults v := by
    unfold CollateralVault.refundAll
    simp
  unfold World.expireAll
  rw [hrecords, hvault, Function.update_eq_self]

/-- One set after another is their union. -/
theorem World.expireAll_union (hST : Disjoint S T) (v : Address) (w : World) :
    (w.expireAll v S).expireAll v T = w.expireAll v (S ∪ T) := by
  unfold World.expireAll
  simp only [Function.update_self, Function.update_idem, expireRecords_union hST,
    CollateralVault.refundAll_union hST]

end algebra

-- ================================================================== the program

/-- The state in which every sweep of `hs` goes through: the wiring, a lock
for every hash that is due, and debts of less than a word. -/
structure Sweepable (net : Net) (v : Address) (hs : List Bytes32) (w : World) : Prop where
  isVault : net.isVault v = true
  vault : w.registry.vault = v
  registry : (w.vaults v).registry = net.registry
  covers : ∀ h, w.Due h → (w.registry.commitments h).size.val
    ≤ (w.vaults v).lockedBalance h (w.registry.commitments h).tokenIn
  debt : ∀ h ∈ hs, w.Due h → w.owed v (w.registry.commitments h).tokenIn < 2 ^ 256

/-- What the program does about one hash that is due, in the form of
`swept`. -/
theorem expire_eq (v : Address) (h : Bytes32) (w : World) :
    let r := w.registry.commitments h
    (w.setRecord h (r.close .EXPIRED)).giveBack v h r.owner r.tokenIn r.size.val
      = w.expireAll v {h} := by
  intro r
  have hrecords : update w.registry.commitments h (r.close .EXPIRED)
      = expireRecords {h} w.registry.commitments := by
    funext x
    by_cases hx : x = h
    · subst hx
      rw [Function.update_self, expireRecords_of_mem (Finset.mem_singleton_self x)]
    · rw [Function.update_of_ne hx, expireRecords_of_notMem (by simpa using hx)]
  have hfree : update2 (w.vaults v).freeBalance r.owner r.tokenIn
        ((w.vaults v).freeBalance r.owner r.tokenIn + r.size.val)
      = fun u t => (w.vaults v).freeBalance u t
        + ∑ x ∈ {h}, (w.registry.commitments x).refund u t := by
    funext u t
    rw [update2_apply, Finset.sum_singleton, CommitmentRecord.refund]
    by_cases hu : u = r.owner ∧ t = r.tokenIn
    · obtain ⟨rfl, rfl⟩ := hu
      simp [r]
    · rw [if_neg hu, if_neg fun hu' => hu ⟨hu'.1.symm, hu'.2.symm⟩, add_zero]
  have hlocked : update2 (w.vaults v).lockedBalance h r.tokenIn
        ((w.vaults v).lockedBalance h r.tokenIn - r.size.val)
      = fun x t =>
        if x ∈ ({h} : Finset Bytes32) ∧ t = (w.registry.commitments x).tokenIn then
          (w.vaults v).lockedBalance x t - (w.registry.commitments x).size.val
        else (w.vaults v).lockedBalance x t := by
    funext x t
    rw [update2_apply]
    by_cases hx : x = h
    · subst hx
      by_cases ht : t = r.tokenIn
      · subst ht
        simp [r]
      · simp [r, ht]
    · simp [hx]
  unfold World.giveBack World.setLocked World.setFree World.onVault World.expireAll
    CollateralVault.refundAll
  rw [← hrecords, ← hfree, ← hlocked]
  simp only [Function.update_self, Function.update_idem]
  rfl

/-- The empty list changes nothing. -/
theorem swept_nil (v : Address) (w : World) : w.swept v [] = w := by
  unfold World.swept
  rw [List.toFinset_nil, World.expireAll_empty, List.flatMap_nil, List.append_nil]

/-- A list of one hash. -/
theorem swept_one (v : Address) (h : Bytes32) (w : World) :
    let r := w.registry.commitments h
    ((w.expireAll v {h}).emit (.vault v (.CollateralReturned h r.owner r.tokenIn r.size))).emit
        (.registry (.CommitmentExpired h r.owner))
      = w.swept v [h] := by
  intro r
  have hlog : w.log ++ [h].flatMap (w.expireEvents v)
      = w.log ++ [.vault v (.CollateralReturned h r.owner r.tokenIn r.size)]
        ++ [.registry (.CommitmentExpired h r.owner)] := by
    rw [List.append_assoc]
    rfl
  unfold World.swept
  rw [hlog]
  rfl

/-- The records' amounts stay, and with them what an expiry logs. -/
theorem expireEvents_swept (hs : List Bytes32) (x : Bytes32) :
    (w.swept v hs).expireEvents v x = w.expireEvents v x := by
  have hrecord : (w.swept v hs).registry.commitments x
      = expireRecords hs.toFinset w.registry.commitments x := rfl
  unfold World.expireEvents
  rw [hrecord]
  unfold expireRecords
  split <;> rfl

/-- What was swept is no longer due; all else is as due as it was. -/
theorem due_swept (hs : List Bytes32) (x : Bytes32) :
    (w.swept v hs).Due x ↔ w.Due x ∧ x ∉ hs := by
  have hrecord : (w.swept v hs).registry.commitments x
      = expireRecords hs.toFinset w.registry.commitments x := rfl
  have htime : (w.swept v hs).timestamp = w.timestamp := rfl
  unfold World.Due
  rw [hrecord, htime]
  by_cases hx : x ∈ hs
  · rw [expireRecords_of_mem (List.mem_toFinset.2 hx)]
    simp [CommitmentRecord.close, hx]
  · rw [expireRecords_of_notMem (by simpa using hx)]
    simp [hx]

/-- One list after another, without a hash in common, is the list of
both. -/
theorem swept_append {hs₁ hs₂ : List Bytes32} (hdisj : ∀ x ∈ hs₁, x ∉ hs₂) :
    (w.swept v hs₁).swept v hs₂ = w.swept v (hs₁ ++ hs₂) := by
  have hfin : Disjoint hs₁.toFinset hs₂.toFinset := by
    rw [Finset.disjoint_left]
    intro x hx hx'
    exact hdisj x (List.mem_toFinset.1 hx) (List.mem_toFinset.1 hx')
  have hunion := World.expireAll_union hfin v w
  have hevents : hs₂.flatMap ((w.swept v hs₁).expireEvents v) = hs₂.flatMap (w.expireEvents v) := by
    congr 1
    funext x
    exact expireEvents_swept hs₁ x
  have hlog : (w.swept v hs₁).log = w.log ++ hs₁.flatMap (w.expireEvents v) := rfl
  show { (w.expireAll v hs₁.toFinset).expireAll v hs₂.toFinset with
    log := (w.swept v hs₁).log ++ hs₂.flatMap ((w.swept v hs₁).expireEvents v) } = _
  rw [hunion, hevents, hlog, List.append_assoc, ← List.flatMap_append, ← List.toFinset_append]
  rfl

/-- Giving covered collateral back leaves the debt as it is. -/
theorem owed_swept_one {t : Address} (hle : (w.registry.commitments h).size.val
      ≤ (w.vaults v).lockedBalance h (w.registry.commitments h).tokenIn) :
    (w.swept v [h]).owed v t = w.owed v t := by
  have howed : (w.swept v [h]).owed v t = (w.expireAll v {h}).book.owed v t := rfl
  rw [howed, ← expire_eq, book_giveBack, book_setRecord, owed_giveBack hle]
  rfl

/-- What can be swept can be swept in part. -/
theorem Sweepable.mono {hs hs' : List Bytes32} (hw : Sweepable net v hs w)
    (hsub : ∀ x ∈ hs', x ∈ hs) : Sweepable net v hs' w :=
  ⟨hw.isVault, hw.vault, hw.registry, hw.covers, fun x hx => hw.debt x (hsub x hx)⟩

/-- After a hash is swept the rest still can be. -/
theorem Sweepable.next {hs : List Bytes32} (hw : Sweepable net v hs w) (hdue : w.Due h) :
    Sweepable net v hs (w.swept v [h]) := by
  have hrecord : ∀ {x}, x ≠ h →
      (w.swept v [h]).registry.commitments x = w.registry.commitments x := by
    intro x hx
    exact expireRecords_of_notMem (by simpa using hx)
  have hvault : (w.swept v [h]).vaults v
      = (w.vaults v).refundAll {h} w.registry.commitments := Function.update_self ..
  refine ⟨hw.isVault, hw.vault, ?_, fun x hx => ?_, fun x hmem hx => ?_⟩
  · rw [hvault]
    exact hw.registry
  · obtain ⟨hx, hne⟩ := (due_swept [h] x).1 hx
    rw [List.mem_singleton] at hne
    have hlocked : ((w.swept v [h]).vaults v).lockedBalance x
        = (w.vaults v).lockedBalance x := by
      funext t
      rw [hvault]
      simp [CollateralVault.refundAll, hne]
    rw [hlocked, hrecord hne]
    exact hw.covers x hx
  · obtain ⟨hx, hne⟩ := (due_swept [h] x).1 hx
    rw [List.mem_singleton] at hne
    rw [hrecord hne, owed_swept_one (hw.covers h hdue)]
    exact hw.debt x hmem hx

namespace CommitmentRegistry

/-- A return that the vault covers, with room for the credit. -/
theorem vaultReturn_direct {u t : Address} {a : U256} {Q : Unit → World → Prop}
    (hv : net.isVault v = true) (hvault : w.registry.vault = v)
    (hreg : (w.vaults v).registry = net.registry)
    (hle : a.val ≤ (w.vaults v).lockedBalance h t)
    (hroom : (w.vaults v).freeBalance u t + a.val < 2 ^ 256)
    (hQ : Q () ((w.giveBack v h u t a.val).emit (.vault v (.CollateralReturned h u t a)))) :
    (vaultReturn net h u t a).wp Rely.direct Q w := by
  unfold vaultReturn CollateralVault.returnCollateral
  simp only [wp_bind, wp_read, wp_ite, hvault, CollateralVault.wp_onlyRegistry, wp_require,
    CollateralVault.wp_subLocked, CollateralVault.wp_addFree, CollateralVault.wp_emit,
    World.freeBalance_setLocked, direct_check]
  exact ⟨fun _ => ⟨hreg.symm, hle, hle, hroom, hQ⟩, fun hno => absurd hv hno⟩

/-- One round of the loop: `continue`, or an expiry. -/
theorem sweepOne_direct {hs : List Bytes32} {Q : Unit → World → Prop}
    (hw : Sweepable net v (h :: hs) w) (hdue : w.Due h → Q () (w.swept v [h]))
    (hskip : ¬w.Due h → Q () w) : (sweepOne net h).wp Rely.direct Q w := by
  unfold sweepOne
  simp only [wp_bind, wp_read, wp_ite, wp_setStatus, wp_emit, wp_pure]
  refine ⟨fun hd => ?_, hskip⟩
  have hle := hw.covers h hd
  have hdebt := hw.debt h List.mem_cons_self hd
  have hroom : (w.vaults v).freeBalance (w.registry.commitments h).owner
      (w.registry.commitments h).tokenIn + (w.registry.commitments h).size.val < 2 ^ 256 :=
    lt_of_le_of_lt (lock_owed hle) hdebt
  refine vaultReturn_direct hw.isVault hw.vault hw.registry hle hroom ?_
  -- the event reads the owner after the vault's call; it is the one before
  have hafter : ∀ x : World, x = w.expireAll v {h} →
      Q () ((x.emit (.vault v (.CollateralReturned h (w.registry.commitments h).owner
          (w.registry.commitments h).tokenIn (w.registry.commitments h).size))).emit
        (.registry (.CommitmentExpired h (x.registry.commitments h).owner))) := by
    intro x hx
    subst hx
    have hrecord : (w.expireAll v {h}).registry.commitments h
        = (w.registry.commitments h).close .EXPIRED :=
      expireRecords_of_mem (Finset.mem_singleton_self h)
    have hone := swept_one v h w
    dsimp only at hone
    rw [← hone] at hdue
    rw [hrecord]
    exact hdue hd
  exact hafter _ (expire_eq v h w)

/-- The loop: the hashes that are due expire, each once, at its first
place in the list. -/
theorem sweepAll_direct {hs : List Bytes32} (hw : Sweepable net v hs w) :
    ∃ fired : List Bytes32, fired.Nodup ∧ (∀ x, x ∈ fired ↔ x ∈ hs ∧ w.Due x)
      ∧ (sweepAll net hs).wp Rely.direct (fun _ w' => w' = w.swept v fired) w := by
  induction hs generalizing w with
  | nil => exact ⟨[], List.nodup_nil, by simp, (swept_nil v w).symm⟩
  | cons h hs ih =>
      have htail : Sweepable net v hs w := hw.mono fun x hx => List.mem_cons_of_mem h hx
      by_cases hd : w.Due h
      · obtain ⟨fired, hnodup, hmem, hrest⟩ := ih (htail.next hd)
        have hmem' : ∀ x, x ∈ fired ↔ x ∈ hs ∧ w.Due x ∧ x ≠ h := by
          intro x
          rw [hmem, due_swept, List.mem_singleton]
        refine ⟨h :: fired, List.nodup_cons.2 ⟨?_, hnodup⟩, fun x => ?_, ?_⟩
        · intro hh
          exact ((hmem' h).1 hh).2.2 rfl
        · rw [List.mem_cons, List.mem_cons, hmem']
          by_cases hx : x = h
          · subst hx
            simp [hd]
          · simp [hx]
        · rw [sweepAll, wp_bind]
          refine sweepOne_direct hw (fun _ => ?_) fun hno => absurd hd hno
          have happend : (w.swept v [h]).swept v fired = w.swept v (h :: fired) := by
            refine swept_append fun x hx hx' => ?_
            rw [List.mem_singleton] at hx
            exact ((hmem' x).1 hx').2.2 hx
          rw [← happend]
          exact hrest
      · obtain ⟨fired, hnodup, hmem, hrest⟩ := ih htail
        refine ⟨fired, hnodup, fun x => ?_, ?_⟩
        · rw [hmem, List.mem_cons]
          by_cases hx : x = h
          · subst hx
            simp [hd]
          · simp [hx]
        · rw [sweepAll, wp_bind]
          exact sweepOne_direct hw (fun hyes => absurd hyes hd) fun _ => hrest

end CommitmentRegistry

/-- Taking the lock for a sweep and giving it back. -/
theorem swept_unlock (hfree : w.registry.entered = false) (fired : List Bytes32) :
    ((w.setRegistryEntered true).swept v fired).setRegistryEntered false = w.swept v fired := by
  have hregistry : { w.registry with entered := false } = w.registry := by
    rw [← hfree]
  have hsame : ((w.setRegistryEntered true).swept v fired).setRegistryEntered false
      = World.swept v fired { w with registry := { w.registry with entered := false } } := rfl
  rw [hsame, hregistry]

/-- The call returns, and this is the state it leaves. -/
theorem sweepExpired_returns {hs : List Bytes32} (hw : Sweepable net v hs w)
    (hfree : w.registry.entered = false) (hvalue : m.value.val = 0) :
    ∃ fired : List Bytes32, fired.Nodup ∧ (∀ x, x ∈ fired ↔ x ∈ hs ∧ w.Due x)
      ∧ entry net (m, .sweepExpired hs) w
        = .done () ((w.swept v fired).returned m (.sweepExpired hs)) := by
  have hlocked : Sweepable net v hs (w.setRegistryEntered true) :=
    ⟨hw.isVault, hw.vault, hw.registry, hw.covers, hw.debt⟩
  obtain ⟨fired, hnodup, hmem, hrun⟩ := CommitmentRegistry.sweepAll_direct hlocked
  refine ⟨fired, hnodup, hmem, ?_⟩
  have hcompletes : Completes net (m, .sweepExpired hs)
      (fun w' => w' = (w.swept v fired).returned m (.sweepExpired hs)) w := by
    rw [completes_iff, entry_direct, dispatch, wp_nonpayable_direct]
    unfold CommitmentRegistry.sweepExpired
    rw [CommitmentRegistry.wp_nonReentrant, direct_check]
    refine ⟨hvalue, hfree, wp_mono hrun fun _ w' hw' => ?_⟩
    rw [hw', swept_unlock hfree]
  obtain ⟨w', hdone, rfl⟩ := hcompletes
  exact hdone

-- ============================================================== the set operation

namespace World

/-- Sameness composes. -/
theorem Same.trans {w₁ w₂ w₃ : World} (h : Same w₁ w₂) (h' : Same w₂ w₃) : Same w₁ w₃ :=
  Eq.trans h h'

/-- Sameness has two sides. -/
theorem Same.symm (h : Same w w') : Same w' w := Eq.symm h

/-- The operation does not read the events. -/
theorem Same.expireAll (h : Same w w') (v : Address) (S : Finset Bytes32) :
    Same (w.expireAll v S) (w'.expireAll v S) :=
  congrArg (World.expireAll v S) h

/-- The two forms of a sweep. -/
theorem same_swept (v : Address) (hs : List Bytes32) (w : World) :
    Same (w.swept v hs) (w.expireAll v hs.toFinset) := rfl

end World

/-- After the hashes that were due are swept, the list still can be. -/
theorem Sweepable.swept {hs fired : List Bytes32} (hw : Sweepable net v hs w)
    (hnodup : fired.Nodup) (hdue : ∀ x ∈ fired, w.Due x) :
    Sweepable net v hs (w.swept v fired) := by
  induction fired generalizing w with
  | nil =>
      rw [swept_nil]
      exact hw
  | cons h fired ih =>
      obtain ⟨hnot, hnodup⟩ := List.nodup_cons.1 hnodup
      obtain ⟨hhead, htail⟩ := List.forall_mem_cons.1 hdue
      have happend : (w.swept v [h]).swept v fired = w.swept v (h :: fired) := by
        refine swept_append fun x hx hx' => ?_
        rw [List.mem_singleton] at hx
        exact hnot (hx ▸ hx')
      rw [← happend]
      refine ih (hw.next hhead) hnodup fun x hx => ?_
      rw [due_swept, List.mem_singleton]
      exact ⟨htail x hx, fun heq => hnot (heq ▸ hx)⟩

/-- All tokens `t` there are. -/
def World.supply (t : Address) (w : World) : ℕ := ∑ a, w.balances t a

/-- What locks `h` is a standard token whose supply is a word. -/
def StandardCollateral (net : Net) (h : Bytes32) (w : World) : Prop :=
  net.standard (w.registry.commitments h).tokenIn = true
    ∧ w.supply (w.registry.commitments h).tokenIn < 2 ^ 256

/-- A reachable state with the wiring kept can be swept. -/
theorem sweepable_of_run (hd : Deployed w) (hw : Wired net v w) {c : ChainConfig}
    (hrun : (chain net).Run (KeepsWiring net v) ⟨w, []⟩ c) {hs : List Bytes32}
    (hcol : ∀ h ∈ hs, c.world.Due h → StandardCollateral net h c.world) :
    Sweepable net v hs c.world := by
  obtain ⟨d, ht⟩ := run_tracks (KeepsWiring.allows net v) hrun
  obtain ⟨hl, -⟩ := lockstep_trans hd hw ht 0
  refine ⟨hl.wired.isVault, hl.wired.vault, hl.wired.registry, fun h hdue => hl.covers hdue.1, ?_⟩
  intro h hh hdue
  obtain ⟨hstandard, hsupply⟩ := hcol h hh hdue
  have howed := ht.covered hd hl.wired.isVault hstandard
  have hheld : c.world.balances (c.world.registry.commitments h).tokenIn v
      ≤ c.world.supply (c.world.registry.commitments h).tokenIn := le_sum _ v
  exact lt_of_le_of_lt (howed.trans hheld) hsupply

/-- The hashes of the list that are due. -/
def World.dueOf (w : World) (hs : List Bytes32) : Finset Bytes32 :=
  hs.toFinset.filter w.Due

/-- What a sweep leaves: its hashes that are due have expired, with an
entry in the log for each, and the call has returned. -/
structure SweptTo (v : Address) (m : Msg) (hs : List Bytes32) (w w' : World) : Prop where
  state : w'.Same (w.expireAll v (w.dueOf hs))
  log : ∃ fired : List Bytes32, fired.Nodup ∧ (∀ h, h ∈ fired ↔ h ∈ hs ∧ w.Due h)
    ∧ w'.log = w.log ++ fired.flatMap (w.expireEvents v)
  receipts : w'.receipts = w.receipts ++ [⟨w.timestamp, m.sender, .sweepExpired hs⟩]

/-- As a set, what was swept is what was listed and due. -/
theorem toFinset_fired {hs fired : List Bytes32}
    (hmem : ∀ h, h ∈ fired ↔ h ∈ hs ∧ w.Due h) : fired.toFinset = w.dueOf hs := by
  ext h
  rw [List.mem_toFinset, hmem, World.dueOf, Finset.mem_filter, List.mem_toFinset]

/-- A sweep on a state that can be swept. -/
theorem sweep_once {hs : List Bytes32} (hw : Sweepable net v hs w)
    (hfree : w.registry.entered = false) (hvalue : m.value.val = 0) :
    ∃ w', entry net (m, .sweepExpired hs) w = .done () w' ∧ SweptTo v m hs w w'
      ∧ (∀ hs', Sweepable net v hs' w → Sweepable net v hs' w')
      ∧ w'.registry.entered = false ∧ ∀ h, w'.Due h ↔ w.Due h ∧ h ∉ hs := by
  obtain ⟨fired, hnodup, hmem, hdone⟩ := sweepExpired_returns hw hfree hvalue
  refine ⟨_, hdone, ⟨?_, ⟨fired, hnodup, hmem, rfl⟩, rfl⟩, fun hs' hw' => ?_, hfree, fun h => ?_⟩
  · rw [← toFinset_fired hmem]
    exact World.same_swept v fired w
  · have hswept := hw'.swept hnodup fun x hx => ((hmem x).1 hx).2
    exact ⟨hswept.isVault, hswept.vault, hswept.registry, hswept.covers, hswept.debt⟩
  · have hdue := due_swept (w := w) (v := v) fired h
    rw [hmem] at hdue
    have hsame : ((w.swept v fired).returned m (.sweepExpired hs)).Due h
        ↔ (w.swept v fired).Due h := Iff.rfl
    rw [hsame, hdue]
    constructor
    · exact fun hh => ⟨hh.1, fun hin => hh.2 ⟨hin, hh.1⟩⟩
    · exact fun hh => ⟨hh.1, fun hin => hh.2 hin.1⟩

/-- `sweepExpired` is a total set operation: in every reachable state in
which the registry's lock is free it returns, with its listed hashes that
are due expired and nothing else changed; equal sets of hashes, a
repetition and a split of the list all end in the same state. -/
theorem sweep_is_set_operation (hd : Deployed w) (hw : Wired net v w) {c : ChainConfig}
    (hrun : (chain net).Run (KeepsWiring net v) ⟨w, []⟩ c)
    (hfree : c.stack = [] ∨ c.world.registry.entered = false) {hs : List Bytes32}
    (hcol : ∀ h ∈ hs, c.world.Due h → StandardCollateral net h c.world)
    (hvalue : m.value.val = 0) :
    ∃ w', entry net (m, .sweepExpired hs) c.world = .done () w' ∧ SweptTo v m hs c.world w'
      ∧ (∀ hs' m', m'.value.val = 0 → (∀ h, h ∈ hs' ↔ h ∈ hs) →
        ∃ w'', entry net (m', .sweepExpired hs') c.world = .done () w'' ∧ w''.Same w')
      ∧ (∀ m', m'.value.val = 0 →
        ∃ w'', entry net (m', .sweepExpired hs) w' = .done () w'' ∧ w''.Same w')
      ∧ ∀ hs₁ hs₂ m₁ m₂, hs = hs₁ ++ hs₂ → m₁.value.val = 0 → m₂.value.val = 0 →
        ∃ w₁ w₂, entry net (m₁, .sweepExpired hs₁) c.world = .done () w₁
          ∧ entry net (m₂, .sweepExpired hs₂) w₁ = .done () w₂ ∧ w₂.Same w' := by
  have hlock : c.world.registry.entered = false := by
    rcases hfree with hstack | hfree
    · obtain ⟨w', stack⟩ := c
      subst hstack
      exact (guards_free hd hrun).1
    · exact hfree
  have hsweep := sweepable_of_run hd hw hrun hcol
  obtain ⟨w', hdone, hswept, hkeeps, hlock', hdue⟩ := sweep_once hsweep hlock hvalue
  refine ⟨w', hdone, hswept, ?_, ?_, ?_⟩
  · intro hs' m' hvalue' hmem
    have hsweep' := hsweep.mono fun h hh => (hmem h).1 hh
    obtain ⟨w'', hdone'', hswept'', -⟩ := sweep_once hsweep' hlock hvalue'
    refine ⟨w'', hdone'', hswept''.state.trans ?_⟩
    have hset : c.world.dueOf hs' = c.world.dueOf hs := by
      ext h
      simp only [World.dueOf, Finset.mem_filter, List.mem_toFinset, hmem]
    rw [hset]
    exact hswept.state.symm
  · intro m' hvalue'
    obtain ⟨w'', hdone'', hswept'', -⟩ := sweep_once (hkeeps hs hsweep) hlock' hvalue'
    refine ⟨w'', hdone'', hswept''.state.trans ?_⟩
    have hset : w'.dueOf hs = ∅ := by
      ext h
      simp only [World.dueOf, Finset.mem_filter, List.mem_toFinset, hdue, Finset.notMem_empty,
        iff_false, not_and, not_not]
      exact fun hh _ => hh
    rw [hset, World.expireAll_empty]
    exact rfl
  · intro hs₁ hs₂ m₁ m₂ happend hvalue₁ hvalue₂
    subst happend
    have hsweep₁ := hsweep.mono fun h hh => List.mem_append_left hs₂ hh
    have hsweep₂ := hsweep.mono fun h hh => List.mem_append_right hs₁ hh
    obtain ⟨w₁, hdone₁, hswept₁, hkeeps₁, hlock₁, hdue₁⟩ := sweep_once hsweep₁ hlock hvalue₁
    obtain ⟨w₂, hdone₂, hswept₂, -⟩ := sweep_once (hkeeps₁ hs₂ hsweep₂) hlock₁ hvalue₂
    refine ⟨w₁, w₂, hdone₁, hdone₂, hswept₂.state.trans ?_⟩
    have hdisj : Disjoint (c.world.dueOf hs₁) (w₁.dueOf hs₂) := by
      rw [Finset.disjoint_left]
      intro h hh hh'
      simp only [World.dueOf, Finset.mem_filter, List.mem_toFinset, hdue₁] at hh hh'
      exact hh'.2.2 hh.1
    have hset : c.world.dueOf hs₁ ∪ w₁.dueOf hs₂ = c.world.dueOf (hs₁ ++ hs₂) := by
      ext h
      simp only [World.dueOf, Finset.mem_union, Finset.mem_filter, List.mem_toFinset, hdue₁,
        List.mem_append]
      by_cases hh : h ∈ hs₁ <;> simp [hh]
    have htwo := hswept₁.state.expireAll v (w₁.dueOf hs₂)
    rw [World.expireAll_union hdisj, hset] at htwo
    exact htwo.trans hswept.state.symm

-- ==================================================================== a sample

/-- Three orders of user 8 in one token; two of them expire. -/
def sampleExpiring : List ChainMove :=
  sampleSetup ++
    [call 8 (.registerCommitment 77 10 11 60 5 2000 .ORDER_FILL),
      call 8 (.registerCommitment 78 10 11 30 5 2000 .DCA),
      call 8 (.registerCommitment 79 10 11 5 5 5000 .DCA), .outside (.tick 1500)]

/-- Known, unknown and repeated hashes. -/
def sampleHashes : List Bytes32 := [78, 99, 77, 79, 78]

/-- Five hashes, one of them twice and two not due. -/
theorem sweep_is_set_operation_sample :
    let w₂ := (chain sampleNet).endState sampleExpiring sampleWorld
    ∃ w', entry sampleNet (⟨9, 0, 1, 1⟩, .sweepExpired sampleHashes) w₂ = .done () w'
      ∧ (w₂.vaults 3).freeBalance 8 10 = 5 ∧ (w'.vaults 3).freeBalance 8 10 = 95
      ∧ SweptTo 3 ⟨9, 0, 1, 1⟩ sampleHashes w₂ w' := by
  intro w₂
  have hrun : (chain sampleNet).Run (KeepsWiring sampleNet 3) ⟨sampleWorld, []⟩ ⟨w₂, []⟩ := by
    refine .of_endState ?_ (by decide +kernel)
    simp [sampleExpiring, sampleSetup, call, KeepsWiring, Call.KeepsWiring]
  have hbalances : w₂.balances = (sampleWorld.moveToken 10 8 3 100).balances := rfl
  have hsupply : w₂.supply 10 < 2 ^ 256 := by
    have hle : ∀ a : Address, w₂.balances 10 a ≤ 1000 := by
      intro a
      rw [hbalances]
      unfold World.moveToken sampleWorld
      simp only [update2_apply, true_and]
      split_ifs <;> simp
    have hsum := Finset.sum_le_card_nsmul Finset.univ (w₂.balances 10) 1000 fun a _ => hle a
    simp only [Finset.card_univ, Fintype.card_fin] at hsum
    have htotal : w₂.supply 10 ≤ 2 ^ 160 * 1000 := hsum
    omega
  have hcol : ∀ h ∈ sampleHashes, w₂.Due h → StandardCollateral sampleNet h w₂ := by
    have htoken : ∀ h ∈ sampleHashes, w₂.Due h → (w₂.registry.commitments h).tokenIn = 10 := by
      have hunknown : (w₂.registry.commitments 99).status = .NONE := rfl
      simp only [sampleHashes, List.forall_mem_cons]
      refine ⟨fun _ => rfl, fun hdue => ?_, fun _ => rfl, fun _ => rfl, fun _ => rfl, by simp⟩
      rw [World.Due, hunknown] at hdue
      exact absurd hdue.1 (by decide)
    intro h hh hdue
    unfold StandardCollateral
    rw [htoken h hh hdue]
    exact ⟨rfl, hsupply⟩
  obtain ⟨w', hdone, hswept, -⟩ := sweep_is_set_operation (m := ⟨9, 0, 1, 1⟩)
    sampleWorld_deployed sampleWorld_wired hrun (.inl rfl) hcol rfl
  refine ⟨w', hdone, by decide +kernel, ?_, hswept⟩
  have hfree := congrArg (fun w : World => (w.vaults 3).freeBalance 8 10) hswept.state
  refine hfree.trans ?_
  decide +kernel

end Zstrategy.Contracts
