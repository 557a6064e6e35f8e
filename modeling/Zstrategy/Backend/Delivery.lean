/-
`ChainIndexer.Run` and `poll` as a machine: the chain mines blocks, the
node pushes or answers, and the indexer handles one log at a time. Every
RPC failure, every reconnection and every error of a handler is a label.

A subscription delivers what is emitted while it lives; what a broken
subscription had not delivered, and what is emitted before the next one,
is never asked for again. In poll mode the cursor moves past a block
whatever the handlers returned.

# The invariant

A log is pending if it is a lifecycle log the indexer should have seen
and no matching call for it has returned nil. `Inv` says that no pending
log is older than a handled one or than the cursor, and where the pending
logs still are: in the subscription's queue, in the rest of the polled
range, or ahead of the cursor. Each step keeps it as long as the handlers
return nil and no subscription is left behind with a pending log.
-/
import Zstrategy.Backend.LogSafety
import Zstrategy.Lib.Machine

namespace Zstrategy.Backend

open Lib Go Contracts

/-- A registry log on the chain, with its place among all of them. -/
structure Entry where
  position : ℕ
  block : ℕ
  event : RegistryEvent
  txHash : String
  deriving DecidableEq

/-- Where the goroutine is. -/
inductive Mode where
  /-- `Run`, before the node answers `SubscribeFilterLogs`. -/
  | starting
  /-- The `select` of `Run`; `queue` is what the node has pushed. -/
  | subscribed (queue : List Entry)
  /-- Asleep after a subscription error. -/
  | reconnecting
  /-- The `select` of `poll`. -/
  | waiting
  /-- A tick of `poll`, before `FilterLogs`. -/
  | filtering (latest : ℕ)
  /-- The loop over `filterLogs`; `logs` are those left. -/
  | handling (toBlock : ℕ) (logs : List Entry)
  | stopped
  | panicked
  deriving DecidableEq

/-- What the indexer has to have seen: all logs from a place on, or all
logs from a block on. -/
inductive Start where
  | subscribed (position : ℕ)
  | polled (block : ℕ)
  deriving DecidableEq

structure Delivery where
  /-- The chain's last block. -/
  head : ℕ
  emitted : List Entry
  mode : Mode
  fromBlock : Option ℕ
  /-- The first subscription, or the first polled block. -/
  since : Option Start
  /-- Logs that `handleLog` has returned from. -/
  handled : List Entry
  /-- Logs with the handler call made for them, where it returned nil. -/
  applied : List (Entry × HandlerCall)
  deriving DecidableEq

inductive DeliveryStep where
  /-- The chain mines a block with these registry logs. -/
  | mine (events : List (RegistryEvent × String))
  | subscribe
  | subscribeFails
  | subscriptionError
  | reconnect
  /-- `BlockNumber` answers at a tick. -/
  | blockNumber (latest : ℕ)
  | blockNumberFails
  | filterLogs
  | filterLogsFails
  /-- `handleLog` on the next log; `err` is what the handler returns. -/
  | handleLog (node : NodeAnswers) (now : ℤ) (err : Option String)
  /-- The cursor moves past the polled range. -/
  | advance
  /-- The context is cancelled. -/
  | cancel

namespace Delivery

/-- The entries of a new block. -/
def newEntries (position block : ℕ) : List (RegistryEvent × String) → List Entry
  | [] => []
  | (event, txHash) :: rest =>
      ⟨position, block, event, txHash⟩ :: newEntries (position + 1) block rest

/-- `start := latest; if latest > 1000 { start = latest - 1000 }`. -/
def pollStart (latest : ℕ) : ℕ :=
  if latest > 1000 then latest - 1000 else latest

/-- A subscription is pushed the logs of a new block. -/
def push (new : List Entry) : Mode → Mode
  | .subscribed queue => .subscribed (queue ++ new)
  | mode => mode

/-- What `FilterLogs` returns. -/
def range (lo hi : ℕ) (emitted : List Entry) : List Entry :=
  emitted.filter fun e => decide (lo ≤ e.block) && decide (e.block ≤ hi)

/-- The next log, and the mode after it. -/
def next (d : Delivery) : Option (Entry × Mode) :=
  match d.mode with
  | .subscribed (e :: queue) => some (e, .subscribed queue)
  | .handling toBlock (e :: logs) => some (e, .handling toBlock logs)
  | _ => none

variable (keccak : String → Bytes32) (ci : ChainIndexer)

/-- One `handleLog`; a handler's error is only logged. -/
def handle (node : NodeAnswers) (now : ℤ) (err : Option String) (e : Entry) (rest : Mode)
    (d : Delivery) : Delivery :=
  match ci.handlerCall keccak node now
      (encodeLog keccak e.event e.txHash (UInt64.ofNat e.block)) () with
  | .ok (some c) _ =>
      { d with
        mode := rest, handled := d.handled ++ [e],
        applied := if err = none then d.applied ++ [(e, c)] else d.applied }
  | .ok none _ => { d with mode := rest, handled := d.handled ++ [e] }
  | .err _ _ => { d with mode := rest, handled := d.handled ++ [e] }
  | .panic _ => { d with mode := .panicked }

def step (d : Delivery) : DeliveryStep → Option Delivery
  | .mine events =>
      let new := newEntries d.emitted.length (d.head + 1) events
      some { d with
        head := d.head + 1
        emitted := d.emitted ++ new
        mode := push new d.mode }
  | .subscribe =>
      if d.mode = .starting then
        some { d with
          mode := .subscribed [],
          since := some (d.since.getD (.subscribed d.emitted.length)) }
      else none
  | .subscribeFails =>
      if d.mode = .starting then some { d with mode := .waiting, fromBlock := none } else none
  | .subscriptionError =>
      match d.mode with
      | .subscribed _ => some { d with mode := .reconnecting }
      | _ => none
  | .reconnect => if d.mode = .reconnecting then some { d with mode := .starting } else none
  | .blockNumber latest =>
      if d.mode = .waiting ∧ latest ≤ d.head then
        some { d with
          mode := .filtering latest
          fromBlock := some (d.fromBlock.getD (pollStart latest))
          since := some (d.since.getD (.polled (pollStart latest))) }
      else none
  | .blockNumberFails => if d.mode = .waiting then some d else none
  | .filterLogs =>
      match d.mode, d.fromBlock with
      | .filtering latest, some lo =>
          some { d with mode := .handling latest (range lo latest d.emitted) }
      | _, _ => none
  | .filterLogsFails =>
      match d.mode with
      | .filtering _ => some { d with mode := .waiting }
      | _ => none
  | .handleLog node now err =>
      match d.next with
      | some (e, rest) => some (handle keccak ci node now err e rest d)
      | none => none
  | .advance =>
      match d.mode with
      | .handling toBlock [] =>
          some { d with mode := .waiting, fromBlock := some (toBlock + 1) }
      | _ => none
  | .cancel => some { d with mode := .stopped }

end Delivery

/-- The indexer over the chain. -/
def delivery (keccak : String → Bytes32) (ci : ChainIndexer) :
    Machine Delivery DeliveryStep where
  step l d := d.step keccak ci l

-- ======================================================== what is to be handled

namespace Delivery

/-- The handler call that belongs to an event. -/
def Matches (c : HandlerCall) (event : RegistryEvent) : Prop :=
  ∃ h, lifecycle event = some (c.status, h) ∧ c.commitmentHash = hexHash h

/-- The matching handler was called for the log and returned nil. -/
def Applied (d : Delivery) (e : Entry) : Prop :=
  ∃ c, (e, c) ∈ d.applied ∧ Matches c e.event

/-- The log is one the indexer should have seen. -/
def Covered (d : Delivery) (e : Entry) : Prop :=
  match d.since with
  | none => False
  | some (.subscribed position) => position ≤ e.position
  | some (.polled block) => block ≤ e.block

/-- A lifecycle log to be seen that has not been applied. -/
structure Pending (d : Delivery) (e : Entry) : Prop where
  emitted : e ∈ d.emitted
  lifecycle : lifecycle e.event ≠ none
  covered : d.Covered e
  unapplied : ¬ d.Applied e

/-- Whatever has been handled or passed, all that came in earlier blocks
has been applied. -/
def NoneLost (d : Delivery) : Prop :=
  ∀ b, ((∃ x ∈ d.handled, x.block = b) ∨ ∃ f, d.fromBlock = some f ∧ b < f) →
    ∀ e ∈ d.emitted, lifecycle e.event ≠ none → d.Covered e → e.block < b → d.Applied e

/-- The steps that lose nothing: handlers return nil; a new subscription
starts with nothing pending; the first polled block after a subscription
is not after a pending one. -/
def Undisturbed (d : Delivery) : DeliveryStep → Prop
  | .handleLog _ _ err => err = none
  | .subscribe => ∀ e, ¬ d.Pending e
  | .blockNumber latest => d.fromBlock = none → ∀ e, d.Pending e → pollStart latest ≤ e.block
  | _ => True

-- ============================================================== the invariant

/-- Blocks do not decrease. -/
def Ordered (logs : List Entry) : Prop :=
  logs.Pairwise fun x y => x.block ≤ y.block

/-- Where the pending logs are, and what the mode's own logs are. -/
def ModeOk (d : Delivery) (pending : Entry → Prop) : Mode → Prop
  | .subscribed queue =>
      d.since ≠ none ∧ Ordered queue ∧ (∀ x ∈ queue, x ∈ d.emitted)
        ∧ ∀ e, pending e → e ∈ queue
  | .filtering latest => d.since ≠ none ∧ latest ≤ d.head ∧ d.fromBlock ≠ none
  | .handling toBlock logs =>
      d.since ≠ none ∧ Ordered logs ∧ (∀ x ∈ logs, x ∈ d.emitted ∧ x.block ≤ toBlock)
        ∧ toBlock ≤ d.head
        ∧ ∀ e, pending e → e.block ≤ toBlock → e ∈ logs
  | _ => True

structure Inv (d : Delivery) : Prop where
  ordered : Ordered d.emitted
  head : ∀ e ∈ d.emitted, e.block ≤ d.head
  position : ∀ e ∈ d.emitted, e.position < d.emitted.length
  handled : ∀ x ∈ d.handled, x.block ≤ d.head
  cursor : ∀ f, d.fromBlock = some f → f ≤ d.head + 1
  unstarted : d.since = none → d.handled = [] ∧ d.fromBlock = none
  pending : ∀ e, d.Pending e →
    (∀ x ∈ d.handled, x.block ≤ e.block) ∧ ∀ f, d.fromBlock = some f → f ≤ e.block
  mode : d.ModeOk d.Pending d.mode

variable {keccak : String → Bytes32} {ci : ChainIndexer} {d d' : Delivery}

theorem Inv.noneLost (h : d.Inv) : d.NoneLost := by
  intro b hb e he hlife hcov hlt
  by_contra hunapplied
  obtain ⟨hhandled, hcursor⟩ := h.pending e ⟨he, hlife, hcov, hunapplied⟩
  rcases hb with ⟨x, hx, rfl⟩ | ⟨f, hf, hbf⟩
  · have hle := hhandled x hx
    omega
  · have hle := hcursor f hf
    omega

-- ==================================================================== mining

theorem newEntries_spec (events : List (RegistryEvent × String)) (position block : ℕ) :
    ∀ e ∈ newEntries position block events,
      e.block = block ∧ position ≤ e.position ∧ e.position < position + events.length := by
  induction events generalizing position with
  | nil => simp [newEntries]
  | cons x rest ih =>
      intro e he
      rcases List.mem_cons.1 he with rfl | he
      · exact ⟨rfl, Nat.le_refl _, by simp⟩
      · obtain ⟨hb, hlo, hhi⟩ := ih (position + 1) e he
        refine ⟨hb, by omega, ?_⟩
        rw [List.length_cons]
        omega

theorem newEntries_length (events : List (RegistryEvent × String)) (position block : ℕ) :
    (newEntries position block events).length = events.length := by
  induction events generalizing position with
  | nil => rfl
  | cons x rest ih => simp [newEntries, ih]

/-- Logs of one block are ordered, and so they are after older ones. -/
theorem ordered_append {old new : List Entry} {b : ℕ} (hold : Ordered old)
    (hle : ∀ x ∈ old, x.block ≤ b) (hnew : ∀ x ∈ new, x.block = b + 1) :
    Ordered (old ++ new) := by
  unfold Ordered
  rw [List.pairwise_append]
  refine ⟨hold, ?_, ?_⟩
  · apply List.pairwise_of_forall_mem_list
    intro x hx y hy
    rw [hnew x hx, hnew y hy]
  · intro x hx y hy
    have hxb := hle x hx
    have hyb := hnew y hy
    omega

/-- Pending logs before a step that applies at most more are pending. -/
theorem Pending.back {e : Entry} (h : d'.Pending e) (hemitted : e ∈ d.emitted)
    (hsince : d'.since = d.since) (happlied : ∀ x ∈ d.applied, x ∈ d'.applied) :
    d.Pending e := by
  refine ⟨hemitted, h.lifecycle, ?_, ?_⟩
  · have hcov := h.covered
    unfold Covered at hcov ⊢
    rwa [hsince] at hcov
  · intro ha
    obtain ⟨c, hc, hmatch⟩ := ha
    exact h.unapplied ⟨c, happlied _ hc, hmatch⟩

/-- New logs reach a subscription, and are ahead of a polled range. -/
theorem ModeOk.push {P P' : Entry → Prop} {new : List Entry} {mode : Mode}
    (h : ModeOk d P mode) (hemitted : d'.emitted = d.emitted ++ new)
    (hhead : d'.head = d.head + 1) (hcursor : d'.fromBlock = d.fromBlock)
    (hsince : d'.since = d.since)
    (hnew : ∀ e ∈ new, e.block = d.head + 1) (hle : ∀ e ∈ d.emitted, e.block ≤ d.head)
    (hP : ∀ e, P' e → P e ∨ e ∈ new) : ModeOk d' P' (Delivery.push new mode) := by
  cases mode with
  | subscribed queue =>
      obtain ⟨hs, hord, hmem, hpend⟩ := h
      refine ⟨hsince ▸ hs, ordered_append hord (fun x hx => hle x (hmem x hx)) hnew, ?_, ?_⟩
      · intro x hx
        rw [hemitted]
        rcases List.mem_append.1 hx with hx | hx
        · exact List.mem_append_left _ (hmem x hx)
        · exact List.mem_append_right _ hx
      · intro e he
        rcases hP e he with hold | hfresh
        · exact List.mem_append_left _ (hpend e hold)
        · exact List.mem_append_right _ hfresh
  | filtering latest =>
      obtain ⟨hs, hlatest, hne⟩ := h
      exact ⟨hsince ▸ hs, by omega, hcursor ▸ hne⟩
  | handling toBlock logs =>
      obtain ⟨hs, hord, hmem, hto, hpend⟩ := h
      refine ⟨hsince ▸ hs, hord, ?_, by omega, ?_⟩
      · intro x hx
        rw [hemitted]
        exact ⟨List.mem_append_left _ (hmem x hx).1, (hmem x hx).2⟩
      · intro e he hle'
        rcases hP e he with hold | hfresh
        · exact hpend e hold hle'
        · have hblock := hnew e hfresh
          omega
  | starting => trivial
  | reconnecting => trivial
  | waiting => trivial
  | stopped => trivial
  | panicked => trivial

theorem inv_mine (h : d.Inv) (events : List (RegistryEvent × String))
    (hstep : d.step keccak ci (.mine events) = some d') : d'.Inv := by
  have hnew := newEntries_spec events d.emitted.length (d.head + 1)
  have hlength := newEntries_length events d.emitted.length (d.head + 1)
  simp only [step, Option.some.injEq] at hstep
  generalize newEntries d.emitted.length (d.head + 1) events = new at *
  -- a pending log is an old pending one or a new one
  have hpending : ∀ e, d'.Pending e → d.Pending e ∨ e ∈ new := by
    intro e he
    have hemitted : e ∈ d.emitted ++ new := by
      rw [← hstep] at he
      exact he.emitted
    rcases List.mem_append.1 hemitted with hold | hfresh
    · rw [← hstep] at he
      exact .inl (he.back hold rfl fun _ hx => hx)
    · exact .inr hfresh
  subst hstep
  constructor
  · exact ordered_append h.ordered h.head fun x hx => (hnew x hx).1
  · intro e he
    rcases List.mem_append.1 he with he | he
    · have hle := h.head e he
      show e.block ≤ d.head + 1
      omega
    · exact (hnew e he).1.le
  · intro e he
    rw [List.length_append, hlength]
    rcases List.mem_append.1 he with he | he
    · have hlt := h.position e he
      omega
    · exact (hnew e he).2.2
  · intro x hx
    have hle := h.handled x hx
    show x.block ≤ d.head + 1
    omega
  · intro f hf
    have hle := h.cursor f hf
    show f ≤ d.head + 1 + 1
    omega
  · exact h.unstarted
  · intro e he
    rcases hpending e he with hold | hfresh
    · exact h.pending e hold
    · have hblock := (hnew e hfresh).1
      refine ⟨fun x hx => ?_, fun f hf => ?_⟩
      · have hle := h.handled x hx
        omega
      · have hle := h.cursor f hf
        omega
  · exact h.mode.push rfl rfl rfl rfl (fun e he => (hnew e he).1) h.head hpending

-- ================================================================== handling

theorem Ordered.tail {e : Entry} {logs : List Entry} (h : Ordered (e :: logs)) :
    Ordered logs ∧ ∀ x ∈ logs, e.block ≤ x.block := by
  obtain ⟨hle, hrest⟩ := List.pairwise_cons.1 h
  exact ⟨hrest, hle⟩

/-- The next log is not after any pending one, and the pending ones other
than it stay where they were. -/
theorem Inv.next {e : Entry} {rest : Mode} (h : d.Inv) (hnext : d.next = some (e, rest)) :
    d.since ≠ none ∧ e.block ≤ d.head ∧ (∀ x, d.Pending x → e.block ≤ x.block)
      ∧ ModeOk d (fun x => d.Pending x ∧ x ≠ e) rest := by
  have hmode := h.mode
  unfold Delivery.next at hnext
  cases hm : d.mode with
  | subscribed queue =>
      rw [hm] at hnext hmode
      cases queue with
      | nil => nomatch hnext
      | cons y queue =>
          cases hnext
          obtain ⟨hs, hord, hmem, hpend⟩ := hmode
          obtain ⟨hrest, hle⟩ := hord.tail
          refine ⟨hs, h.head _ (hmem _ List.mem_cons_self), ?_, hs, hrest,
            fun x hx => hmem x (List.mem_cons_of_mem _ hx), ?_⟩
          · intro x hx
            rcases List.mem_cons.1 (hpend x hx) with rfl | hx
            · exact Nat.le_refl _
            · exact hle x hx
          · intro x hx
            exact (List.mem_cons.1 (hpend x hx.1)).resolve_left hx.2
  | handling toBlock logs =>
      rw [hm] at hnext hmode
      cases logs with
      | nil => nomatch hnext
      | cons y logs =>
          cases hnext
          obtain ⟨hs, hord, hmem, hto, hpend⟩ := hmode
          obtain ⟨hrest, hle⟩ := hord.tail
          have hy := (hmem _ List.mem_cons_self).2
          refine ⟨hs, by omega, ?_, hs, hrest, fun x hx => hmem x (List.mem_cons_of_mem _ hx), hto,
            ?_⟩
          · intro x hx
            by_cases hxto : x.block ≤ toBlock
            · rcases List.mem_cons.1 (hpend x hx hxto) with rfl | hx
              · exact Nat.le_refl _
              · exact hle x hx
            · omega
          · intro x hx hxto
            exact (List.mem_cons.1 (hpend x hx.1 hxto)).resolve_left hx.2
  | _ => rw [hm] at hnext; nomatch hnext

/-- A mode whose logs hold the pending ones holds them when fewer are. -/
theorem ModeOk.mono {P P' : Entry → Prop} {mode : Mode} (h : ModeOk d P mode)
    (hemitted : d'.emitted = d.emitted) (hhead : d'.head = d.head)
    (hcursor : d'.fromBlock = d.fromBlock) (hsince : d'.since = d.since)
    (hP : ∀ e, P' e → P e) : ModeOk d' P' mode := by
  cases mode with
  | subscribed queue =>
      obtain ⟨hs, hord, hmem, hpend⟩ := h
      exact ⟨hsince ▸ hs, hord, hemitted ▸ hmem, fun e he => hpend e (hP e he)⟩
  | filtering latest =>
      obtain ⟨hs, hlatest, hne⟩ := h
      exact ⟨hsince ▸ hs, hhead ▸ hlatest, hcursor ▸ hne⟩
  | handling toBlock logs =>
      obtain ⟨hs, hord, hmem, hto, hpend⟩ := h
      exact ⟨hsince ▸ hs, hord, hemitted ▸ hmem, hhead ▸ hto, fun e he => hpend e (hP e he)⟩
  | starting => trivial
  | reconnecting => trivial
  | waiting => trivial
  | stopped => trivial
  | panicked => trivial

/-- Handling the next log keeps the invariant if, should it be pending, it
is applied. -/
theorem Inv.handled_next {e : Entry} {rest : Mode} (h : d.Inv)
    (hnext : d.next = some (e, rest)) (hemitted : d'.emitted = d.emitted)
    (hhead : d'.head = d.head) (hcursor : d'.fromBlock = d.fromBlock)
    (hsince : d'.since = d.since) (hhandled : d'.handled = d.handled ++ [e])
    (hmode : d'.mode = rest) (happlied : ∀ x ∈ d.applied, x ∈ d'.applied)
    (hdone : lifecycle e.event ≠ none → d'.Applied e) : d'.Inv := by
  obtain ⟨hstarted, hblock, hfirst, hrest⟩ := h.next hnext
  have hpending : ∀ x, d'.Pending x → d.Pending x ∧ x ≠ e := by
    intro x hx
    refine ⟨hx.back (hemitted ▸ hx.emitted) hsince happlied, ?_⟩
    intro hxe
    subst hxe
    exact hx.unapplied (hdone hx.lifecycle)
  constructor
  · exact hemitted ▸ h.ordered
  · rw [hemitted, hhead]
    exact h.head
  · rw [hemitted]
    exact h.position
  · rw [hhandled, hhead]
    intro x hx
    rcases List.mem_append.1 hx with hx | hx
    · exact h.handled x hx
    · rw [List.mem_singleton.1 hx]
      exact hblock
  · rw [hcursor, hhead]
    exact h.cursor
  · rw [hsince]
    exact fun hnone => absurd hnone hstarted
  · rw [hhandled, hcursor]
    intro x hx
    obtain ⟨hold, -⟩ := hpending x hx
    obtain ⟨hle, hf⟩ := h.pending x hold
    refine ⟨fun y hy => ?_, hf⟩
    rcases List.mem_append.1 hy with hy | hy
    · exact hle y hy
    · rw [List.mem_singleton.1 hy]
      exact hfirst x hold
  · rw [hmode]
    exact hrest.mono hemitted hhead hcursor hsince hpending

theorem inv_handle (hk : DistinctTopics keccak) (h : d.Inv) {node : NodeAnswers} {now : ℤ}
    (hstep : d.step keccak ci (.handleLog node now none) = some d') : d'.Inv := by
  simp only [step] at hstep
  cases hnext : d.next with
  | none => rw [hnext] at hstep; nomatch hstep
  | some next =>
      obtain ⟨e, rest⟩ := next
      simp only [hnext, Option.some.injEq] at hstep
      cases hlife : lifecycle e.event with
      | some event =>
          obtain ⟨c, hstatus, hhash, hcall⟩ := handlerCall_lifecycle (σ := Unit) ci node now hk
            e.txHash (UInt64.ofNat e.block) hlife
          have hmatch : Matches c e.event := ⟨event.2, hstatus ▸ hlife, hhash⟩
          rw [handle, hcall] at hstep
          subst hstep
          refine h.handled_next hnext rfl rfl rfl rfl rfl rfl ?_ ?_
          · exact fun x hx => List.mem_append_left _ hx
          · exact fun _ => ⟨c, List.mem_append_right _ (List.mem_singleton_self _), hmatch⟩
      | none =>
          by_cases hstale : isStalenessSet e.event
          · rw [handle, handlerCall_staleness ci node now _ _ hstale] at hstep
            subst hstep
            exact ⟨h.ordered, h.head, h.position, h.handled, h.cursor, h.unstarted,
              fun x hx => h.pending x (hx.back hx.emitted rfl fun _ hy => hy), trivial⟩
          · rw [handle, handlerCall_other ci node now hk _ _ hlife hstale] at hstep
            subst hstep
            exact h.handled_next hnext rfl rfl rfl rfl rfl rfl (fun _ hx => hx)
              fun hne => absurd hlife hne

-- ============================================================== other steps

/-- Steps that only move the mode, the cursor and the start. -/
theorem Inv.moved (h : d.Inv) (hemitted : d'.emitted = d.emitted) (hhead : d'.head = d.head)
    (hhandled : d'.handled = d.handled)
    (hcursor : ∀ f, d'.fromBlock = some f → f ≤ d'.head + 1)
    (hunstarted : d'.since = none → d.since = none ∧ d'.fromBlock = none)
    (hpending : ∀ e, d'.Pending e →
      (∀ x ∈ d.handled, x.block ≤ e.block) ∧ ∀ f, d'.fromBlock = some f → f ≤ e.block)
    (hmode : ModeOk d' d'.Pending d'.mode) : d'.Inv := by
  refine ⟨hemitted ▸ h.ordered, ?_, ?_, ?_, hcursor, ?_, hhandled ▸ hpending, hmode⟩
  · rw [hemitted, hhead]
    exact h.head
  · rw [hemitted]
    exact h.position
  · rw [hhandled, hhead]
    exact h.handled
  · rw [hhandled]
    intro hnone
    obtain ⟨hold, hcur⟩ := hunstarted hnone
    exact ⟨(h.unstarted hold).1, hcur⟩

theorem pollStart_le (latest : ℕ) : pollStart latest ≤ latest := by
  unfold pollStart
  split <;> omega

/-- The first subscription, and a later one with nothing pending. -/
theorem inv_subscribe (h : d.Inv) (hnone : ∀ e, ¬ d.Pending e)
    (hstep : d.step keccak ci .subscribe = some d') : d'.Inv := by
  simp only [step] at hstep
  split at hstep
  · cases hstep
    have hpending : ∀ e, ¬ Delivery.Pending
        { d with
          mode := .subscribed []
          since := some (d.since.getD (.subscribed d.emitted.length)) } e := by
      intro e he
      cases hs : d.since with
      | some start =>
          refine hnone e (he.back he.emitted ?_ fun _ hx => hx)
          simp [hs]
      | none =>
          -- what was emitted before the first subscription is not covered
          have hcov := he.covered
          have hlt := h.position e he.emitted
          simp only [Covered, hs, Option.getD_none] at hcov
          omega
    refine h.moved rfl rfl rfl h.cursor (fun hn => nomatch hn)
      (fun e he => absurd he (hpending e)) ?_
    exact ⟨by simp, .nil, by simp, fun e he => absurd he (hpending e)⟩
  · nomatch hstep

/-- A tick: the first one fixes the cursor. -/
theorem inv_blockNumber (h : d.Inv) {latest : ℕ}
    (hstart : d.fromBlock = none → ∀ e, d.Pending e → pollStart latest ≤ e.block)
    (hstep : d.step keccak ci (.blockNumber latest) = some d') : d'.Inv := by
  simp only [step] at hstep
  split at hstep
  · rename_i hguard
    cases hstep
    have hle := pollStart_le latest
    refine h.moved rfl rfl rfl ?_ (fun hn => nomatch hn) ?_ ⟨by simp, hguard.2, by simp⟩
    · intro f hf
      simp only [Option.some.injEq] at hf
      show f ≤ d.head + 1
      cases hc : d.fromBlock with
      | some g =>
          have hg := h.cursor g hc
          rw [hc, Option.getD_some] at hf
          omega
      | none =>
          rw [hc, Option.getD_none] at hf
          omega
    · intro e he
      simp only [Option.some.injEq]
      cases hs : d.since with
      | some start =>
          have hold : d.Pending e := he.back he.emitted (by simp [hs]) fun _ hx => hx
          refine ⟨(h.pending e hold).1, ?_⟩
          intro f hf
          cases hc : d.fromBlock with
          | some g =>
              rw [hc, Option.getD_some] at hf
              exact hf ▸ (h.pending e hold).2 g hc
          | none =>
              rw [hc, Option.getD_none] at hf
              exact hf ▸ hstart hc e hold
      | none =>
          -- the first poll: what it does not cover is not pending
          obtain ⟨hhandled, hcursor⟩ := h.unstarted hs
          have hcov := he.covered
          simp only [Covered, hs, Option.getD_none] at hcov
          rw [hhandled, hcursor]
          simpa using hcov
  · nomatch hstep

/-- `FilterLogs` returns every pending log of the range. -/
theorem inv_filterLogs (h : d.Inv) (hstep : d.step keccak ci .filterLogs = some d') :
    d'.Inv := by
  simp only [step] at hstep
  split at hstep
  · rename_i latest lo hm hc
    have hmode := h.mode
    rw [hm] at hmode
    obtain ⟨hs, hlatest, -⟩ := hmode
    have hmem : ∀ e, e ∈ range lo latest d.emitted
        ↔ e ∈ d.emitted ∧ lo ≤ e.block ∧ e.block ≤ latest := by
      simp [range]
    cases hstep
    have hback : ∀ e, Delivery.Pending
        { d with mode := .handling latest (range lo latest d.emitted) } e →
        d.Pending e := fun e he => he.back he.emitted rfl fun _ hx => hx
    refine h.moved rfl rfl rfl h.cursor (fun hn => ⟨hn, (h.unstarted hn).2⟩)
      (fun e he => h.pending e (hback e he)) ⟨hs, ?_, ?_, hlatest, ?_⟩
    · exact h.ordered.filter _
    · intro x hx
      obtain ⟨hx, -, hle⟩ := (hmem x).1 hx
      exact ⟨hx, hle⟩
    · intro e he hle
      exact (hmem e).2 ⟨he.emitted, (h.pending e (hback e he)).2 lo hc, hle⟩
  · nomatch hstep

/-- The cursor passes a range nothing of which is pending. -/
theorem inv_advance (h : d.Inv) (hstep : d.step keccak ci .advance = some d') : d'.Inv := by
  simp only [step] at hstep
  cases hm : d.mode with
  | handling toBlock logs =>
      cases logs with
      | nil =>
          simp only [hm, Option.some.injEq] at hstep
          have hmode := h.mode
          rw [hm] at hmode
          obtain ⟨hs, -, -, hto, hpend⟩ := hmode
          subst hstep
          refine h.moved rfl rfl rfl ?_ (fun hn => absurd hn hs) ?_ trivial
          · intro f hf
            simp only [Option.some.injEq] at hf
            show f ≤ d.head + 1
            omega
          · intro e he
            have hold : d.Pending e := he.back he.emitted rfl fun _ hx => hx
            refine ⟨(h.pending e hold).1, ?_⟩
            intro f hf
            simp only [Option.some.injEq] at hf
            by_contra hlt
            have hmem := hpend e hold (by omega)
            nomatch hmem
      | cons x logs => simp [hm] at hstep
  | _ => simp [hm] at hstep

/-- A step that only leaves a mode for one without logs of its own. -/
theorem Inv.left (h : d.Inv) {mode : Mode} {fromBlock : Option ℕ}
    (hcursor : ∀ f, fromBlock = some f → d.fromBlock = some f)
    (hmode : ∀ d' P, ModeOk d' P mode) : Inv { d with mode := mode, fromBlock := fromBlock } := by
  refine h.moved rfl rfl rfl (fun f hf => h.cursor f (hcursor f hf)) ?_ ?_ (hmode _ _)
  · intro hn
    refine ⟨hn, ?_⟩
    cases hf : fromBlock with
    | none => rfl
    | some f =>
        have hsome := hcursor f hf
        rw [(h.unstarted hn).2] at hsome
        nomatch hsome
  · intro e he
    have hold : d.Pending e := he.back he.emitted rfl fun _ hx => hx
    exact ⟨(h.pending e hold).1, fun f hf => (h.pending e hold).2 f (hcursor f hf)⟩

/-- Every undisturbed step keeps the invariant. -/
theorem inv_step (hk : DistinctTopics keccak) (h : d.Inv) {l : DeliveryStep}
    (hl : d.Undisturbed l) (hstep : d.step keccak ci l = some d') : d'.Inv := by
  cases l with
  | mine events => exact inv_mine h events hstep
  | subscribe => exact inv_subscribe h hl hstep
  | blockNumber latest => exact inv_blockNumber h hl hstep
  | filterLogs => exact inv_filterLogs h hstep
  | advance => exact inv_advance h hstep
  | handleLog node now err =>
      cases hl
      exact inv_handle hk h hstep
  | subscribeFails =>
      simp only [step] at hstep
      split at hstep
      · cases hstep
        exact h.left (fun f hf => nomatch hf) fun _ _ => trivial
      · nomatch hstep
  | subscriptionError =>
      simp only [step] at hstep
      split at hstep
      · cases hstep
        exact h.left (fun f hf => hf) fun _ _ => trivial
      · nomatch hstep
  | reconnect =>
      simp only [step] at hstep
      split at hstep
      · cases hstep
        exact h.left (fun f hf => hf) fun _ _ => trivial
      · nomatch hstep
  | blockNumberFails =>
      simp only [step] at hstep
      split at hstep
      · cases hstep
        exact h
      · nomatch hstep
  | filterLogsFails =>
      simp only [step] at hstep
      split at hstep
      · cases hstep
        exact h.left (fun f hf => hf) fun _ _ => trivial
      · nomatch hstep
  | cancel =>
      cases hstep
      exact h.left (fun f hf => hf) fun _ _ => trivial

-- ==================================================================== the run

/-- The indexer is launched on a chain that may already have logs. -/
structure Launched (d : Delivery) : Prop where
  ordered : Ordered d.emitted
  head : ∀ e ∈ d.emitted, e.block ≤ d.head
  position : ∀ e ∈ d.emitted, e.position < d.emitted.length
  mode : d.mode = .starting
  fromBlock : d.fromBlock = none
  since : d.since = none
  handled : d.handled = []
  applied : d.applied = []

theorem Launched.inv (h : d.Launched) : d.Inv := by
  refine ⟨h.ordered, h.head, h.position, ?_, ?_, fun _ => ⟨h.handled, h.fromBlock⟩, ?_, ?_⟩
  · rw [h.handled]
    simp
  · rw [h.fromBlock]
    simp
  · intro e he
    have hcov := he.covered
    unfold Covered at hcov
    rw [h.since] at hcov
    exact absurd hcov id
  · rw [h.mode]
    trivial

/-- In a run of undisturbed steps nothing is lost, in any state. -/
theorem none_lost (keccak : String → Bytes32) (hk : DistinctTopics keccak) (ci : ChainIndexer)
    (d₀ d : Delivery) (hlaunch : d₀.Launched)
    (hrun : (delivery keccak ci).Run Undisturbed d₀ d) : d.NoneLost := by
  have hinv : d.Inv := hrun.inv (fun s l s' hs hP hstep => inv_step hk hs hP hstep) hlaunch.inv
  exact hinv.noneLost

-- ================================================================== examples

/-- An empty chain, and the indexer about to subscribe. -/
def launch : Delivery := ⟨0, [], .starting, none, none, [], []⟩

theorem launch_launched : launch.Launched where
  ordered := .nil
  head := by simp [launch]
  position := by simp [launch]
  mode := rfl
  fromBlock := rfl
  since := rfl
  handled := rfl
  applied := rfl

/-- A registration in block 1 and its cancellation in block 2, each
handled; `err` is what the first handler returns. -/
def sampleDelivery (err : Option String) : List DeliveryStep :=
  [.subscribe, .mine [(.CommitmentRegistered 77 8 10 11 60 2000 .ORDER_FILL, "0x01")],
    .handleLog silentNode 0 err, .mine [(.CommitmentCancelled 77 8, "0x02")],
    .handleLog silentNode 0 none]

theorem none_lost_sample :
    ∃ d, (delivery registryTopic productionChainIndexer).play (sampleDelivery none) launch
        = some d ∧ d.NoneLost := by
  obtain ⟨d, hd⟩ : ∃ d, (delivery registryTopic productionChainIndexer).play
      (sampleDelivery none) launch = some d := Option.isSome_iff_exists.1 (by decide +kernel)
  refine ⟨d, hd, ?_⟩
  have hnone : ∀ e, ¬ launch.Pending e := fun e he => nomatch he.emitted
  have hfirst : (delivery registryTopic productionChainIndexer).Run Undisturbed launch
      { launch with mode := .subscribed [], since := some (.subscribed 0) } :=
    .tail .subscribe (.refl _) hnone rfl
  have hrest : (delivery registryTopic productionChainIndexer).Run Undisturbed
      { launch with mode := .subscribed [], since := some (.subscribed 0) } d := by
    have hplay : (delivery registryTopic productionChainIndexer).play (sampleDelivery none).tail
        { launch with mode := .subscribed [], since := some (.subscribed 0) } = some d := hd
    refine .of_play ?_ hplay
    simp [sampleDelivery, Undisturbed]
  exact none_lost registryTopic registryTopic_distinct productionChainIndexer launch d
    launch_launched (hfirst.trans hrest)

/-- The database refuses the registration; the error is logged and the
next log is handled. -/
theorem handler_error_loses :
    ∃ d, launch.Launched
      ∧ (delivery registryTopic productionChainIndexer).Run Machine.anyStep launch d
      ∧ ¬ d.NoneLost := by
  obtain ⟨d, hd⟩ : ∃ d, (delivery registryTopic productionChainIndexer).play
      (sampleDelivery (some "database is down")) launch = some d :=
    Option.isSome_iff_exists.1 (by decide +kernel)
  refine ⟨d, launch_launched, .of_play (fun _ _ _ => trivial) hd, ?_⟩
  have hend : ((delivery registryTopic productionChainIndexer).play
        (sampleDelivery (some "database is down")) launch).map
          (fun d => (d.emitted, d.handled, d.since, d.applied.map Prod.fst))
      = some (newEntries 0 1 [(.CommitmentRegistered 77 8 10 11 60 2000 .ORDER_FILL, "0x01")]
            ++ newEntries 1 2 [(.CommitmentCancelled 77 8, "0x02")],
          newEntries 0 1 [(.CommitmentRegistered 77 8 10 11 60 2000 .ORDER_FILL, "0x01")]
            ++ newEntries 1 2 [(.CommitmentCancelled 77 8, "0x02")],
          some (.subscribed 0), newEntries 1 2 [(.CommitmentCancelled 77 8, "0x02")]) := by
    decide +kernel
  rw [hd, Option.map_some, Option.some.injEq, Prod.mk.injEq, Prod.mk.injEq, Prod.mk.injEq] at hend
  obtain ⟨hemitted, hhandled, hsince, happlied⟩ := hend
  intro hlost
  obtain ⟨c, hc, -⟩ := hlost 2
    (.inl ⟨⟨1, 2, .CommitmentCancelled 77 8, "0x02"⟩, by rw [hhandled]; decide, rfl⟩)
    ⟨0, 1, .CommitmentRegistered 77 8 10 11 60 2000 .ORDER_FILL, "0x01"⟩
    (by rw [hemitted]; decide) (by decide) (by rw [Covered, hsince]) (by decide)
  have hmem : (⟨0, 1, .CommitmentRegistered 77 8 10 11 60 2000 .ORDER_FILL, "0x01"⟩ : Entry)
      ∈ d.applied.map Prod.fst := List.mem_map_of_mem hc
  rw [happlied] at hmem
  exact absurd hmem (by decide)

end Delivery

end Zstrategy.Backend
