/-
The registry's log tells its storage. Replaying the events from the
constructor's storage gives, at every point between two transactions, what
each commitment's slot holds (all but `minOut`, which no event carries)
and every setting the guardian announces; `setGuardian` announces nothing.

# What the induction carries

A setter writes and announces with no call in between, so the settings
agree with the log wherever control leaves. A commitment's slot does not:
`executeCommitment`, `cancelCommitment` and `sweepExpired` write the
status, hand over control, and announce when it comes back. That gap is
open only while the registry's guard is taken, so the invariant
(`Told`) asks for agreement of the slots when the guard is free, and the
relation (`Held`) says that nobody touches slots, or announces anything of
them, while it is taken. Between transactions the guard is free.
-/
import Zstrategy.Registry.Sides
import Zstrategy.Custody.Guards

namespace Zstrategy.Contracts

open Lib Code

open Function (update)

variable {net : Net}

-- ================================================================== the replica

/-- A commitment as the events tell it. -/
structure LoggedCommitment where
  owner : Address
  expiry : UInt64
  status : CommitmentStatus
  kind : CommitmentKind
  tokenIn : Address
  tokenOut : Address
  size : U256
  deriving DecidableEq

def CommitmentRecord.logged (c : CommitmentRecord) : LoggedCommitment :=
  { owner := c.owner, expiry := c.expiry, status := c.status, kind := c.kind,
    tokenIn := c.tokenIn, tokenOut := c.tokenOut, size := c.size }

/-- What the guardian sets and announces. -/
structure Settings where
  verifiers : UInt8 → Address
  vault : Address
  dexAdapter : Address
  gasVault : Address
  paused : Bool
  oracleStaleness : U256
  priceFeeds : Address → Address

def CommitmentRegistry.settings (r : CommitmentRegistry) : Settings :=
  { verifiers := r.verifiers, vault := r.vault, dexAdapter := r.dexAdapter,
    gasVault := r.gasVault, paused := r.paused, oracleStaleness := r.oracleStaleness,
    priceFeeds := r.priceFeeds }

abbrev Slots := Bytes32 → LoggedCommitment

def CommitmentRegistry.slots (r : CommitmentRegistry) : Slots := fun h => (r.commitments h).logged

/-- What an observer makes of an event about the settings. -/
def Settings.observe (s : Settings) : RegistryEvent → Settings
  | .VerifierSet kind verifier => { s with verifiers := update s.verifiers kind verifier }
  | .DEXAdapterChanged _ newAdapter => { s with dexAdapter := newAdapter }
  | .CollateralVaultChanged _ newVault => { s with vault := newVault }
  | .GasVaultChanged _ newVault => { s with gasVault := newVault }
  | .PriceFeedSet token feed => { s with priceFeeds := update s.priceFeeds token feed }
  | .OracleStalenessSet _ newValue => { s with oracleStaleness := newValue }
  | .Paused _ => { s with paused := true }
  | .Unpaused _ => { s with paused := false }
  | _ => s

def Slots.setStatus (s : Slots) (h : Bytes32) (status : CommitmentStatus) : Slots :=
  update s h { s h with status := status }

/-- What an observer makes of an event about a commitment. -/
def Slots.observe (s : Slots) : RegistryEvent → Slots
  | .CommitmentRegistered h owner tokenIn tokenOut size expiry kind =>
      update s h { owner, expiry, status := .PENDING, kind, tokenIn, tokenOut, size }
  | .CommitmentExecuted h .. => s.setStatus h .EXECUTED
  | .CommitmentCancelled h _ => s.setStatus h .CANCELLED
  | .CommitmentExpired h _ => s.setStatus h .EXPIRED
  | _ => s

def Settings.replay (s : Settings) (events : List RegistryEvent) : Settings :=
  events.foldl Settings.observe s

def Slots.replay (s : Slots) (events : List RegistryEvent) : Slots :=
  events.foldl Slots.observe s

/-- The commitment an event is about. -/
def RegistryEvent.about : RegistryEvent → Option Bytes32
  | .CommitmentRegistered h .. => some h
  | .CommitmentExecuted h .. => some h
  | .CommitmentCancelled h _ => some h
  | .CommitmentExpired h _ => some h
  | _ => none

/-- An event that can follow on what was said of its commitment: nothing
before a registration, and then one ending, in the owner's name. -/
def LoggedCommitment.allows (c : LoggedCommitment) : RegistryEvent → Prop
  | .CommitmentRegistered .. => c.status = .NONE
  | .CommitmentExecuted _ owner _ _ _ _ kind =>
      c.status = .PENDING ∧ owner = c.owner ∧ kind = c.kind
  | .CommitmentCancelled _ owner => c.status = .PENDING ∧ owner = c.owner
  | .CommitmentExpired _ owner => c.status = .PENDING ∧ owner = c.owner
  | _ => True

def Slots.allows (s : Slots) (e : RegistryEvent) : Prop :=
  ∀ h, e.about = some h → (s h).allows e

/-- Each event is allowed by the ones before it. -/
def Slots.Legal : Slots → List RegistryEvent → Prop
  | _, [] => True
  | s, e :: events => s.allows e ∧ (s.observe e).Legal events

/-- Every slot unwritten. -/
def Slots.fresh : Slots := fun _ => CommitmentRecord.empty.logged

/-- Replaying two logs one after the other. -/
theorem Settings.replay_append (s : Settings) (events more : List RegistryEvent) :
    s.replay (events ++ more) = (s.replay events).replay more :=
  List.foldl_append

/-- Likewise for the slots. -/
theorem Slots.replay_append (s : Slots) (events more : List RegistryEvent) :
    s.replay (events ++ more) = (s.replay events).replay more :=
  List.foldl_append

/-- A log is legal if its beginning is, and its rest from there. -/
theorem Slots.legal_append {s : Slots} {events more : List RegistryEvent} :
    s.Legal (events ++ more) ↔ s.Legal events ∧ (s.replay events).Legal more := by
  induction events generalizing s with
  | nil => exact ⟨fun h => ⟨trivial, h⟩, And.right⟩
  | cons e events ih => exact (and_congr_right fun _ => ih).trans and_assoc.symm

/-- An event about no commitment says nothing of the slots. -/
theorem Slots.observe_other {e : RegistryEvent} (he : e.about = none) (s : Slots) :
    s.observe e = s := by
  cases e <;> first | rfl | nomatch he

/-- The slots after a record was written. -/
theorem slots_setRecord (w : World) (h : Bytes32) (c : CommitmentRecord) :
    (w.setRecord h c).registry.slots = update w.registry.slots h c.logged := by
  funext x
  by_cases hx : x = h
  · subst hx
    simp [CommitmentRegistry.slots]
  · simp [CommitmentRegistry.slots, World.setRecord, World.onRegistry, hx]

-- =========================================================== the two conditions

/-- The registry's storage and its log. -/
abbrev Chronicle := CommitmentRegistry × List RegistryEvent

def World.chronicle (w : World) : Chronicle := (w.registry, w.registryLog)

instance : OnRegistry World.chronicle := ⟨fun _ _ h h' => Prod.ext h h'⟩

/-- The log tells the settings, and the slots if the guard is free. -/
structure Told (s₀ : Settings) (x : Chronicle) : Prop where
  legal : Slots.fresh.Legal x.2
  settings : s₀.replay x.2 = x.1.settings
  slots : x.1.entered = false → Slots.fresh.replay x.2 = x.1.slots

/-- While the guard is taken, slots and what is said of them stay. -/
def Held (x y : Chronicle) : Prop :=
  x.1.entered = true →
    y.1.entered = true ∧ y.1.slots = x.1.slots
      ∧ Slots.fresh.replay y.2 = Slots.fresh.replay x.2

/-- Nothing has been done. -/
theorem Held.refl (x : Chronicle) : Held x x := fun h => ⟨h, rfl, rfl⟩

/-- Two stretches in which nothing was done. -/
theorem Held.trans {x y z : Chronicle} (h : Held x y) (h' : Held y z) : Held x z := by
  intro hx
  obtain ⟨hy, hslots, hsaid⟩ := h hx
  obtain ⟨hz, hslots', hsaid'⟩ := h' hy
  exact ⟨hz, hslots'.trans hslots, hsaid'.trans hsaid⟩

/-- A step that starts with the guard free owes nothing to callers. -/
theorem Held.of_free {x y : Chronicle} (h : x.1.entered = false) : Held x y := by
  intro hx
  rw [h] at hx
  nomatch hx

def toldRely (net : Net) (s₀ : Settings) : Rely World Request Reply :=
  (chain net).rely (fun w => Told s₀ w.chronicle) fun w w' => Held w.chronicle w'.chronicle

variable {s₀ : Settings} {w w' : World}

/-- A check that may fail: the failing side owes nothing. -/
theorem told_check {p q : Prop} {e : String} (h : p → q) :
    (p → q) ∧ (¬p → (toldRely net s₀).err e) :=
  ⟨h, fun _ => trivial⟩

/-- A point inside a guarded function: the slots, and what the log says of
them. -/
structure ToldAt (s₀ : Settings) (slots said : Slots) (w : World) : Prop where
  entered : w.registry.entered = true
  legal : Slots.fresh.Legal w.registryLog
  settings : s₀.replay w.registryLog = w.registry.settings
  slots : w.registry.slots = slots
  said : Slots.fresh.replay w.registryLog = said

namespace ToldAt

variable {slots said : Slots}

/-- With the slots announced up to what they are, the log tells the
storage. -/
theorem told (h : ToldAt s₀ slots said w) : Told s₀ w.chronicle := by
  refine ⟨h.legal, h.settings, fun hfree => ?_⟩
  rw [show w.chronicle.1.entered = true from h.entered] at hfree
  nomatch hfree

/-- Nothing about the slots happens at a call. -/
theorem after (h : ToldAt s₀ slots said w) (hi : Told s₀ w'.chronicle)
    (hr : Held w.chronicle w'.chronicle) : ToldAt s₀ slots said w' := by
  obtain ⟨hentered, hslots, hsaid⟩ := hr h.entered
  exact ⟨hentered, hi.legal, hi.settings, hslots.trans h.slots, hsaid.trans h.said⟩

/-- A write elsewhere. -/
theorem same (h : ToldAt s₀ slots said w) (hlog : w'.registryLog = w.registryLog)
    (hentered : w'.registry.entered = w.registry.entered)
    (hsettings : w'.registry.settings = w.registry.settings)
    (hslots : w'.registry.slots = w.registry.slots) : ToldAt s₀ slots said w' := by
  refine ⟨hentered.trans h.entered, ?_, ?_, hslots.trans h.slots, ?_⟩
  · rw [hlog]
    exact h.legal
  · rw [hlog, h.settings, hsettings]
  · rw [hlog, h.said]

/-- A program that runs beside the registry. -/
theorem frame {α : Type} {c : Contract α} [hc : c.Frames World.chronicle]
    (h : ToldAt s₀ slots said w) :
    c.wp (toldRely net s₀) (fun _ w' => ToldAt s₀ slots said w') w := by
  have hrun := hc.rely (S := chain net) (R := Held) (fun _ _ _ => Held.trans) (Held.refl _) h.told
  refine wp_mono hrun ?_
  intro _ w' hw'
  exact h.after hw'.1 hw'.2

/-- A slot is written and not announced yet. -/
theorem setRecord (h : ToldAt s₀ slots said w) (x : Bytes32) (c : CommitmentRecord) :
    ToldAt s₀ (update slots x c.logged) said (w.setRecord x c) := by
  refine ⟨h.entered, h.legal, h.settings, ?_, h.said⟩
  rw [slots_setRecord, h.slots]

/-- The announcement of a change to a slot. -/
theorem emit (h : ToldAt s₀ slots said w) {e : RegistryEvent} (he : ∀ s, Settings.observe s e = s)
    (hallows : said.allows e) : ToldAt s₀ slots (said.observe e) (w.emit (.registry e)) := by
  refine ⟨h.entered, ?_, ?_, h.slots, ?_⟩
  · rw [registryLog_emit, Slots.legal_append, h.said]
    exact ⟨h.legal, hallows, trivial⟩
  · rw [registryLog_emit, Settings.replay_append, h.settings]
    exact he _
  · rw [registryLog_emit, Slots.replay_append, h.said]
    rfl

end ToldAt

/-- A point inside a guarded function with nothing left to announce. -/
def Announced (s₀ : Settings) (w : World) : Prop := ∃ slots, ToldAt s₀ slots slots w

/-- A point inside a guarded function that has closed the pending
commitment `c` under `h`, and has yet to say so. -/
def Owing (s₀ : Settings) (h : Bytes32) (c : LoggedCommitment) (st : CommitmentStatus)
    (w : World) : Prop :=
  ∃ said : Slots, said h = c ∧ c.status = .PENDING ∧ ToldAt s₀ (said.setStatus h st) said w

variable {h : Bytes32} {c : LoggedCommitment} {st : CommitmentStatus}

/-- Spending a nullifier needs no announcement. -/
theorem Announced.spend (hw : Announced s₀ w) (n : Bytes32) : Announced s₀ (w.spend n) := by
  obtain ⟨slots, hw⟩ := hw
  exact ⟨slots, hw.same rfl rfl rfl rfl⟩

/-- A status is written: from here on the announcement is owed. -/
theorem Announced.close (hw : Announced s₀ w) (st : CommitmentStatus)
    (hpend : (w.registry.commitments h).status = .PENDING) :
    Owing s₀ h (w.registry.slots h) st
      (w.setRecord h { w.registry.commitments h with status := st }) := by
  obtain ⟨slots, hw⟩ := hw
  have hset := hw.setRecord h { w.registry.commitments h with status := st }
  rw [← hw.slots] at hset
  exact ⟨w.registry.slots, rfl, hpend, hset⟩

namespace Owing

/-- What does not touch slots or log leaves it owed. -/
theorem frame {α : Type} {body : Contract α} [body.Frames World.chronicle]
    (hw : Owing s₀ h c st w) :
    body.wp (toldRely net s₀) (fun _ w' => Owing s₀ h c st w') w := by
  obtain ⟨said, hc, hpend, hw⟩ := hw
  exact wp_mono hw.frame fun _ w' hw' => ⟨said, hc, hpend, hw'⟩

/-- The slot, meanwhile. -/
theorem slot (hw : Owing s₀ h c st w) : w.registry.slots h = { c with status := st } := by
  obtain ⟨said, hc, -, hw⟩ := hw
  rw [hw.slots, Slots.setStatus, Function.update_self, hc]

/-- The announcement that was owed is made. -/
theorem emit (hw : Owing s₀ h c st w) {e : RegistryEvent} (habout : e.about = some h)
    (hslots : ∀ s : Slots, s.observe e = s.setStatus h st)
    (hsettings : ∀ s : Settings, s.observe e = s) (hallows : c.status = .PENDING → c.allows e) :
    Announced s₀ (w.emit (.registry e)) := by
  obtain ⟨said, hc, hpend, hw⟩ := hw
  have hsaid := hw.emit hsettings (fun x hx => by
    rw [habout] at hx
    cases hx
    rw [hc]
    exact hallows hpend)
  rw [hslots] at hsaid
  exact ⟨_, hsaid⟩

end Owing

-- ================================================================ the registry

namespace CommitmentRegistry

variable {m : Msg} {h n : Bytes32} {tIn tOut : Address} {r : CommitmentRecord}
variable {size minOut : U256} {expiry : UInt64} {kind : CommitmentKind}

/-- A guarded function whose body announces what it does. -/
theorem nonReentrant_told {body : Contract Unit} (hw : Told s₀ w.chronicle)
    (hbody : ∀ w', Announced s₀ w' →
      body.wp (toldRely net s₀) (fun _ w'' => Announced s₀ w'') w') :
    (nonReentrant body).wp (toldRely net s₀)
      (fun _ w' => Told s₀ w'.chronicle ∧ Held w.chronicle w'.chronicle) w := by
  rw [wp_nonReentrant]
  refine told_check fun hfree => ?_
  have hstart : Announced s₀ (w.setRegistryEntered true) :=
    ⟨_, rfl, hw.legal, hw.settings, rfl, hw.slots hfree⟩
  refine wp_mono (hbody _ hstart) fun _ w' hw' => ⟨?_, Held.of_free hfree⟩
  obtain ⟨slots, h⟩ := hw'
  exact ⟨h.legal, h.settings, fun _ => h.said.trans h.slots.symm⟩

/-- A registration writes the slot and announces it with no call in
between. -/
theorem openCommitment_told (hr : r.status = .PENDING)
    (hnone : (w.registry.commitments h).status = .NONE) (hw : Announced s₀ w) :
    (openCommitment net h r).wp (toldRely net s₀) (fun _ w' => Announced s₀ w') w := by
  obtain ⟨slots, hw⟩ := hw
  have hfree : (slots h).status = .NONE := by
    rw [← hw.slots]
    exact hnone
  unfold openCommitment
  simp only [wp_bind, wp_setRecord, wp_emit]
  refine wp_mono (hw.setRecord h r).frame fun _ w' hw' => ?_
  have hrow : slots.observe (.CommitmentRegistered h r.owner r.tokenIn r.tokenOut r.size
      r.expiry r.kind) = update slots h r.logged := by
    rw [Slots.observe, CommitmentRecord.logged, hr]
  have hsaid := hw'.emit (e := .CommitmentRegistered h r.owner r.tokenIn r.tokenOut r.size
    r.expiry r.kind) (fun _ => rfl) (fun x hx => by cases hx; exact hfree)
  rw [hrow] at hsaid
  exact ⟨_, hsaid⟩

/-- `registerCommitment` leaves the storage told. -/
theorem registerCommitment_told (hw : Told s₀ w.chronicle) :
    (registerCommitment net m h tIn tOut size minOut expiry kind).wp (toldRely net s₀)
      (fun _ w' => Told s₀ w'.chronicle ∧ Held w.chronicle w'.chronicle) w := by
  unfold registerCommitment
  refine nonReentrant_told hw fun w hw => ?_
  simp only [wp_bind, wp_whenNotPaused, wp_read, wp_require]
  refine told_check fun _ => told_check fun _ => told_check fun _ => told_check fun _ =>
    told_check fun _ => told_check fun _ => told_check fun _ => told_check fun _ =>
    told_check fun hnone => ?_
  exact openCommitment_told rfl hnone hw

/-- So does each row of a batch; by induction on the rows. -/
theorem registerRows_told {rows : List BatchRow} (hw : Announced s₀ w) :
    (registerRows net m tIn tOut kind rows).wp (toldRely net s₀)
      (fun _ w' => Announced s₀ w') w := by
  induction rows generalizing w with
  | nil => exact hw
  | cons row rows ih =>
      obtain ⟨h, size, minOut, expiry⟩ := row
      rw [registerRows, wp_bind]
      unfold registerRow
      simp only [wp_bind, wp_read, wp_require]
      refine told_check fun _ => told_check fun _ => told_check fun _ => told_check fun hnone => ?_
      exact wp_mono (openCommitment_told rfl hnone hw) fun _ w' hw' => ih hw'

/-- So does a batch. -/
theorem registerCommitmentBatch_told {hs : List Bytes32} {sizes minOuts : List U256}
    {expiries : List UInt64} (hw : Told s₀ w.chronicle) :
    (registerCommitmentBatch net m hs tIn tOut sizes minOuts expiries kind).wp (toldRely net s₀)
      (fun _ w' => Told s₀ w'.chronicle ∧ Held w.chronicle w'.chronicle) w := by
  unfold registerCommitmentBatch
  refine nonReentrant_told hw fun w hw => ?_
  simp only [wp_bind, wp_whenNotPaused, wp_read, wp_require]
  refine told_check fun _ => told_check fun _ => told_check fun _ => told_check fun _ =>
    told_check fun _ => told_check fun _ => told_check fun _ => told_check fun _ =>
    told_check fun _ => ?_
  exact registerRows_told hw

/-- A cancellation owes its announcement while the vault pays out. -/
theorem cancelCommitment_told (hw : Told s₀ w.chronicle) :
    (cancelCommitment net m h n).wp (toldRely net s₀)
      (fun _ w' => Told s₀ w'.chronicle ∧ Held w.chronicle w'.chronicle) w := by
  unfold cancelCommitment
  refine nonReentrant_told hw fun w hw => ?_
  simp only [wp_bind, wp_read, wp_require, wp_spend, wp_setStatus, wp_emit]
  refine told_check fun howner => told_check fun hpend => told_check fun _ => ?_
  refine wp_mono ((hw.spend n).close .CANCELLED hpend).frame ?_
  intro _ w' hw'
  exact hw'.emit rfl (fun _ => rfl) (fun _ => rfl) fun hc => ⟨hc, howner.symm⟩

/-- So does each expiry of a sweep; by induction on the hashes. -/
theorem sweepAll_told {hs : List Bytes32} (hw : Announced s₀ w) :
    (sweepAll net hs).wp (toldRely net s₀) (fun _ w' => Announced s₀ w') w := by
  induction hs generalizing w with
  | nil => exact hw
  | cons h hs ih =>
      rw [sweepAll, wp_bind]
      unfold sweepOne
      simp only [wp_bind, wp_read, wp_ite, wp_setStatus, wp_pure, wp_emit]
      refine ⟨fun hdue => ?_, fun _ => ih hw⟩
      refine wp_mono (hw.close .EXPIRED hdue.1).frame ?_
      intro _ w' hw'
      have howner := congrArg LoggedCommitment.owner hw'.slot
      exact ih (hw'.emit rfl (fun _ => rfl) (fun _ => rfl) fun hc => ⟨hc, howner⟩)

/-- An execution owes it over the swap and the fee. -/
theorem executeCommitment_told {proof : List UInt8} {fillRef : UInt64}
    (hw : Told s₀ w.chronicle) :
    (executeCommitment net m h n proof fillRef).wp (toldRely net s₀)
      (fun _ w' => Told s₀ w'.chronicle ∧ Held w.chronicle w'.chronicle) w := by
  unfold executeCommitment
  refine nonReentrant_told hw fun w hw => ?_
  simp only [wp_bind, wp_whenNotPaused]
  refine told_check fun _ => wp_authorise (fun _ => trivial) fun y hy => ?_
  simp only [wp_spend, wp_setStatus, wp_read, wp_emit]
  -- the status is owed to the log across all three calls
  refine wp_mono ((hw.spend n).close .EXECUTED hy.pending).frame fun _ w₁ h₁ => ?_
  refine wp_mono h₁.frame fun _ w₂ h₂ => ?_
  refine wp_mono h₂.frame ?_
  intro _ w₃ h₃
  have howner := congrArg LoggedCommitment.owner h₃.slot
  have hkind := congrArg LoggedCommitment.kind h₃.slot
  exact h₃.emit rfl (fun _ => rfl) (fun _ => rfl) fun hc => ⟨hc, howner, hkind⟩

end CommitmentRegistry

open CommitmentRegistry

-- ================================================================= the setters

/-- What a setter writes is what it announces. -/
theorem settings_of_setter {sender : Address} {call : Call} {r : CommitmentRegistry}
    {g : CommitmentRegistry → CommitmentRegistry} (hcall : call.setter = some g) :
    (g r).settings = r.settings.replay (call.announces sender r) := by
  cases call <;> cases hcall <;> rfl

/-- It leaves the slots and the guard alone. -/
theorem slots_of_setter {call : Call} {r : CommitmentRegistry}
    {g : CommitmentRegistry → CommitmentRegistry} (hcall : call.setter = some g) :
    (g r).entered = r.entered ∧ (g r).slots = r.slots := by
  cases call <;> cases hcall <;> exact ⟨rfl, rfl⟩

/-- And announces nothing of them. -/
theorem announces_of_setter {sender : Address} {call : Call} {r : CommitmentRegistry}
    {g : CommitmentRegistry → CommitmentRegistry} (hcall : call.setter = some g) :
    ∀ e ∈ call.announces sender r, e.about = none := by
  cases call <;> cases hcall <;> simp [Call.announces, RegistryEvent.about]

/-- Events about no commitment change no slot, and are always legal. -/
theorem Slots.silent {events : List RegistryEvent} (hevents : ∀ e ∈ events, e.about = none)
    (s : Slots) : s.Legal events ∧ s.replay events = s := by
  induction events generalizing s with
  | nil => exact ⟨trivial, rfl⟩
  | cons e events ih =>
      have he : e.about = none := hevents e List.mem_cons_self
      obtain ⟨hlegal, hreplay⟩ := ih (fun e' he' => hevents e' (List.mem_cons_of_mem e he')) s
      have hstep : s.observe e = s := s.observe_other he
      refine ⟨⟨fun h hh => ?_, ?_⟩, ?_⟩
      · rw [he] at hh
        nomatch hh
      · rwa [hstep]
      · rw [Slots.replay, List.foldl_cons, hstep]
        exact hreplay

/-- A setter writes and announces its setting, and touches no slot. -/
theorem set_told {sender : Address} {call : Call} {g : CommitmentRegistry → CommitmentRegistry}
    (hcall : call.setter = some g) (hw : Told s₀ w.chronicle) :
    Told s₀ (w.set g (call.announces sender w.registry)).chronicle
      ∧ Held w.chronicle (w.set g (call.announces sender w.registry)).chronicle := by
  obtain ⟨hentered, hslots⟩ := slots_of_setter (r := w.registry) hcall
  have hquiet : ∀ e ∈ call.announces sender w.registry, e.about = none :=
    announces_of_setter hcall
  obtain ⟨hlegal, hsaid⟩ := Slots.silent hquiet (Slots.fresh.replay w.registryLog)
  have hset : (g w.registry).settings
      = w.registry.settings.replay (call.announces sender w.registry) :=
    settings_of_setter hcall
  unfold World.chronicle
  rw [registryLog_set]
  rw [← Slots.replay_append] at hsaid
  refine ⟨⟨?_, ?_, fun hopen => ?_⟩, fun hheld => ⟨hentered.trans hheld, hslots, hsaid⟩⟩
  · exact Slots.legal_append.2 ⟨hw.legal, hlegal⟩
  · show s₀.replay (w.registryLog ++ _) = (g w.registry).settings
    rw [Settings.replay_append, hset]
    exact congrArg (Settings.replay · _) hw.settings
  · exact (hsaid.trans (hw.slots (hentered.symm.trans hopen))).trans hslots.symm

-- ==================================================================== the chain

/-- A call without ETH. -/
theorem nonpayable_told {m : Msg} {body : Contract Unit} {Q : Unit → World → Prop}
    (hbody : body.wp (toldRely net s₀) Q w) : (nonpayable m body).wp (toldRely net s₀) Q w := by
  unfold nonpayable
  simp only [wp_bind, wp_require]
  exact told_check fun _ => hbody

/-- Every entry point keeps both conditions. -/
theorem dispatch_told (m : Msg) (call : Call) (hw : Told s₀ w.chronicle) :
    (dispatch net m call).wp (toldRely net s₀)
      (fun _ w' => Told s₀ w'.chronicle ∧ Held w.chronicle w'.chronicle) w := by
  by_cases hcall : call.onRegistry = false
  · have hframes : (dispatch net m call).Frames World.chronicle := off_dispatch m hcall
    exact hframes.rely (S := chain net) (R := Held) (fun _ _ _ => Held.trans) (Held.refl _) hw
  · cases call with
    | registerCommitment => exact nonpayable_told (registerCommitment_told hw)
    | registerCommitmentBatch => exact nonpayable_told (registerCommitmentBatch_told hw)
    | executeCommitment => exact nonpayable_told (executeCommitment_told hw)
    | cancelCommitment => exact nonpayable_told (cancelCommitment_told hw)
    | sweepExpired => exact nonpayable_told (nonReentrant_told hw fun _ => sweepAll_told)
    | pause | unpause | setDEXAdapter | setGasVault | setCollateralVault | setGuardian
    | setPriceFeed | setOracleStaleness | setVerifier =>
        exact dispatch_setter (fun _ => trivial) rfl fun _ => set_told rfl hw
    | _ => exact absurd rfl hcall

/-- Every part of a run keeps the storage told, and keeps hands off the
slots while the guard is taken. -/
theorem sound_told (P : World → ChainMove → Prop) :
    (chain net).Sound P (fun w => Told s₀ w.chronicle)
      fun w w' => Held w.chronicle w'.chronicle := by
  refine ⟨fun _ => Held.refl _, fun _ _ _ => Held.trans, ?_, ?_⟩
  · intro i w _ _ hw
    exact (wp_bind ..).2 (wp_mono (dispatch_told i.1 i.2 hw) fun _ _ => id)
  · intro e w w' _ hw he
    obtain ⟨hregistry, hlog⟩ := outside_off he
    have hsame : w'.chronicle = w.chronicle :=
      OnRegistry.reads w w' hregistry (congrArg (List.filterMap Event.registry?) hlog)
    rw [hsame]
    exact ⟨hw, Held.refl _⟩

/-- The constructor leaves every slot empty. -/
theorem Deployed.slots (hd : Deployed w) : w.registry.slots = Slots.fresh := by
  funext h
  exact congrArg CommitmentRecord.logged (hd.commitments h)

/-- Both conditions between transactions, where the guard is free. -/
theorem told_run {w w' : World} {P : World → ChainMove → Prop} (hd : Deployed w)
    (hrun : (chain net).Run P ⟨w, []⟩ ⟨w', []⟩) :
    Told w.registry.settings w'.chronicle ∧ w'.registry.entered = false := by
  have hempty : w.registryLog = [] := congrArg (List.filterMap Event.registry?) hd.log
  have hstart : Told w.registry.settings w.chronicle := by
    unfold World.chronicle
    rw [hempty]
    exact ⟨trivial, rfl, fun _ => hd.slots.symm⟩
  exact ⟨hrun.inv (sound_told P) hstart, (guards_free hd hrun).1⟩

/-- Between transactions the log is legal and, replayed from the storage
the constructor left, gives every commitment's slot and every announced
setting. -/
theorem log_tells_storage {w w' : World} {P : World → ChainMove → Prop} (hd : Deployed w)
    (hrun : (chain net).Run P ⟨w, []⟩ ⟨w', []⟩) :
    w.registry.settings.replay w'.registryLog = w'.registry.settings
      ∧ w.registry.slots.replay w'.registryLog = w'.registry.slots
      ∧ w.registry.slots.Legal w'.registryLog := by
  obtain ⟨htold, hfree⟩ := told_run hd hrun
  rw [hd.slots]
  exact ⟨htold.settings, htold.slots hfree, htold.legal⟩

/-- In the sample deployment: user 8 registers, and the log tells it. -/
theorem log_tells_storage_sample :
    ∃ w', (chain sampleNet).Run anyMove ⟨sampleWorld, []⟩ ⟨w', []⟩
      ∧ (w'.registry.slots 99).status = .PENDING
      ∧ sampleWorld.registry.slots.replay w'.registryLog = w'.registry.slots := by
  have hrun : (chain sampleNet).Run anyMove ⟨sampleWorld, []⟩
      ⟨(chain sampleNet).endState (sampleSetup
        ++ [call 8 (.registerCommitment 99 10 11 60 1 2000 .ORDER_FILL)]) sampleWorld, []⟩ :=
    .of_endState (fun _ _ _ => trivial) rfl
  exact ⟨_, hrun, rfl, (log_tells_storage sampleWorld_deployed hrun).2.1⟩

end Zstrategy.Contracts
