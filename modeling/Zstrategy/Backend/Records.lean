/-
Execution records after any sequence of handler calls. What the handlers
do to the status of one commitment's row is a small automaton: the
register handler creates the row, the executed handler writes or creates
it, the other two only write it. `statusOf_run` says that each handler
takes the automaton's step, so the final status is a fold over the
calls for that commitment, and what is left is a fact about lists.

The automaton has one surprise, which is why `records_converge_iff` is not
simply true: an ending other than an execution that comes before the row
exists is lost without an error, because an update of no row succeeds.
-/
import Zstrategy.Backend.IndexerService
import Zstrategy.Lib.Machine

namespace Zstrategy.Backend

open Lib Go

variable {svc : IndexerService} {env : Env} {h : String} {s s' : Service}

/-- The status of the row of `h`, if there is one. -/
def Service.statusOf (s : Service) (h : String) : Option ExecutionStatus :=
  (s.executions.find h).map ExecutionRecord.status

/-- What an event does to the status of its row. -/
def statusStep (current : Option ExecutionStatus) : ExecutionStatus → Option ExecutionStatus
  | .registered => some (current.getD .registered)
  | .executed => some .executed
  | .cancelled => current.map fun _ => .cancelled
  | .expired => current.map fun _ => .expired

-- ============================================================= the handlers

section Frames

theorem short_keeps (c : String) : Keeps Service.executions (short c) :=
  Keeps.unlessPanic _ _

theorem monitor_updateStatus_keeps (fault : Fault) (now : ℤ) (c : String)
    (status : StrategyStatus) :
    Keeps Service.executions (MonitorService.updateStatus fault now c status) := by
  have hstop : Keeps Service.executions (if status = .DONE then
      modify (Service.onMonitors (Monitors.stopMonitoring c)) else pure ()) := by
    by_cases hdone : status = .DONE
    · rw [if_pos hdone]
      exact Keeps.modify fun _ => rfl
    · rw [if_neg hdone]
      exact Keeps.pure ()
  unfold MonitorService.updateStatus
  refine Keeps.bind Keeps.read fun t => ?_
  cases StrategyRepo.updateStatus fault now c status t.strategies with
  | ok t' => exact Keeps.bind (Keeps.modify fun _ => rfl) fun _ => hstop
  | error e => exact Keeps.bind (short_keeps c) fun _ => hstop

theorem pruneKeeperShares_keeps (c : String) :
    Keeps Service.executions (svc.pruneKeeperShares c) := by
  unfold IndexerService.pruneKeeperShares
  by_cases hurl : svc.keeperURL = ""
  · rw [if_pos hurl]
    exact Keeps.pure ()
  · rw [if_neg hurl]
    exact Keeps.modify fun _ => rfl

theorem finishStrategy_keeps (c : String) :
    Keeps Service.executions (svc.finishStrategy env c) := by
  have hprune : Keeps Service.executions (svc.pruneKeeperShares c) :=
    pruneKeeperShares_keeps c
  unfold IndexerService.finishStrategy
  by_cases hmon : svc.hasMonitor = true
  · rw [if_pos hmon]
    refine Keeps.bind (Keeps.modify fun _ => rfl) fun _ => ?_
    exact Keeps.bind (monitor_updateStatus_keeps _ _ c _) fun _ => hprune
  · rw [if_neg hmon]
    exact hprune

theorem lookupKindLabel_keeps (c : String) :
    Keeps Service.executions (svc.lookupKindLabel env c) := by
  unfold IndexerService.lookupKindLabel
  refine Keeps.bind Keeps.read fun t => ?_
  split
  · exact Keeps.pure _
  · split
    · split <;> exact Keeps.pure _
    · exact Keeps.pure _

theorem recordKind_keeps (c kind : String) :
    Keeps Service.executions (svc.recordKind env c kind) := by
  unfold IndexerService.recordKind
  refine Keeps.bind Keeps.read fun t => ?_
  split
  · refine Keeps.bind (Keeps.check _) fun pending => ?_
    split <;> exact Keeps.pure _
  · exact Keeps.pure _

theorem notifyExecuted_keeps (record : ExecutionRecord) :
    Keeps Service.executions (IndexerService.notifyExecuted record) :=
  Keeps.modify fun _ => rfl

end Frames

/-- A new row. -/
theorem saveRecord_find {fault : Fault} {record : ExecutionRecord} {u : Unit}
    (hrun : IndexerService.saveRecord fault record s = .ok u s') :
    s.executions.find record.commitmentHash = none
      ∧ s'.executions.find h
        = if record.commitmentHash = h then some record else s.executions.find h := by
  unfold IndexerService.saveRecord at hrun
  simp only [bind_ok, read_eq_ok, check_eq_ok, modify_eq_ok] at hrun
  obtain ⟨_, _, ⟨rfl, rfl⟩, t, _, ⟨hsave, rfl⟩, rfl⟩ := hrun
  obtain ⟨-, hinsert⟩ := ExecutionRepo.save_eq_ok.1 hsave
  exact ⟨Table.fresh_of_insert hinsert, Table.find_insert hinsert h⟩

/-- A written row. -/
theorem updateRecord_statusOf {fault : Fault} {c tx : String} {status : ExecutionStatus}
    {b g : UInt64} {t : Option ℤ} {u : Unit}
    (hrun : IndexerService.updateRecord fault c status tx b g t s = .ok u s') :
    s'.statusOf h = if h = c then (s.statusOf h).map fun _ => status else s.statusOf h := by
  unfold IndexerService.updateRecord at hrun
  simp only [bind_ok, read_eq_ok, check_eq_ok, modify_eq_ok] at hrun
  obtain ⟨_, _, ⟨rfl, rfl⟩, t', _, ⟨hupdate, rfl⟩, rfl⟩ := hrun
  have hfind := ExecutionRepo.updateStatus_find hupdate h
  show (t'.find h).map ExecutionRecord.status = _
  unfold Service.statusOf
  rw [hfind]
  by_cases hc : h = c
  · subst hc
    rw [if_pos rfl, if_pos rfl]
    cases s.executions.find h <;> rfl
  · rw [if_neg hc, if_neg hc]

-- ================================================================= one call

theorem handleRegistered_statusOf {c kind : String} {chainID t : ℤ} {u : Unit}
    (hrun : svc.handleRegistered env c kind chainID t s = .ok u s') :
    s'.statusOf h
      = if c = h then statusStep (s.statusOf h) .registered else s.statusOf h := by
  unfold IndexerService.handleRegistered at hrun
  rw [bind_ok] at hrun
  obtain ⟨_, _, hread, hrun⟩ := hrun
  obtain ⟨rfl, rfl⟩ := read_eq_ok.1 hread
  rw [bind_ok] at hrun
  obtain ⟨found, _, hcheck, hrun⟩ := hrun
  obtain ⟨hexists, rfl⟩ := check_eq_ok.1 hcheck
  obtain ⟨-, rfl⟩ := query_eq_ok.1 hexists
  by_cases hrow : (s.executions.find c).isSome
  · rw [if_pos hrow] at hrun
    obtain ⟨-, rfl⟩ := pure_eq_ok.1 hrun
    by_cases hc : c = h
    · subst hc
      obtain ⟨record, hfind⟩ := Option.isSome_iff_exists.1 hrow
      simp [Service.statusOf, statusStep, hfind]
    · rw [if_neg hc]
  · rw [if_neg hrow, bind_ok] at hrun
    obtain ⟨k, s₁, hkind, hsave⟩ := hrun
    have hkeep : s₁.executions = s.executions := recordKind_keeps _ _ s k s₁ hkind
    obtain ⟨hfresh, hfind⟩ := saveRecord_find (h := h) hsave
    unfold Service.statusOf
    rw [hfind]
    rw [hkeep] at hfresh ⊢
    by_cases hc : c = h
    · subst hc
      rw [if_pos rfl, if_pos rfl, hfresh]
      rfl
    · rw [if_neg hc, if_neg hc]

/-- The prefix of a terminal handler does not touch the records. -/
theorem terminal_prefix {c : String} {k : StrategyKind} {s₁ s₂ : Service} {u : Unit}
    (hlookup : svc.lookupKindLabel env c s = .ok k s₁)
    (hfinish : svc.finishStrategy env c s₁ = .ok u s₂) : s₂.executions = s.executions :=
  (finishStrategy_keeps c s₁ u s₂ hfinish).trans (lookupKindLabel_keeps c s k s₁ hlookup)

theorem handleExecuted_statusOf {c tx : String} {chainID t : ℤ} {b g : UInt64} {u : Unit}
    (hrun : svc.handleExecuted env c tx chainID b g t s = .ok u s') :
    s'.statusOf h = if c = h then statusStep (s.statusOf h) .executed else s.statusOf h := by
  unfold IndexerService.handleExecuted at hrun
  rw [bind_ok] at hrun
  obtain ⟨k, s₁, hlookup, hrun⟩ := hrun
  rw [bind_ok] at hrun
  obtain ⟨_, s₂, hfinish, hrun⟩ := hrun
  rw [bind_ok] at hrun
  obtain ⟨_, s₃, hupdate, hrun⟩ := hrun
  have hkeep := terminal_prefix hlookup hfinish
  have hstatus : ∀ x, s₂.statusOf x = s.statusOf x := by
    intro x
    unfold Service.statusOf
    rw [hkeep]
  have hwritten : ∀ x, s₃.statusOf x
      = if x = c then (s.statusOf x).map fun _ => .executed else s.statusOf x := by
    intro x
    rw [updateRecord_statusOf hupdate, hstatus]
  rw [bind_ok] at hrun
  obtain ⟨_, _, hread, hrun⟩ := hrun
  obtain ⟨rfl, rfl⟩ := read_eq_ok.1 hread
  rw [bind_ok] at hrun
  obtain ⟨found, _, hcheck, hrun⟩ := hrun
  obtain ⟨hquery, rfl⟩ := check_eq_ok.1 hcheck
  obtain ⟨-, rfl⟩ := query_eq_ok.1 hquery
  cases hfound : s₃.executions.find c with
  | some record =>
      rw [hfound] at hrun
      have hnotify : s'.executions = s₃.executions := notifyExecuted_keeps _ _ _ _ hrun
      have hlast : s'.statusOf h = s₃.statusOf h := by
        unfold Service.statusOf
        rw [hnotify]
      have hexisted : ∃ st, s.statusOf c = some st := by
        have hc := hwritten c
        rw [if_pos rfl, Service.statusOf, hfound] at hc
        cases hs : s.statusOf c with
        | some st => exact ⟨st, rfl⟩
        | none => rw [hs] at hc; nomatch hc
      obtain ⟨st, hst⟩ := hexisted
      rw [hlast, hwritten]
      by_cases hc : c = h
      · subst hc
        rw [if_pos rfl, if_pos rfl, hst]
        rfl
      · rw [if_neg hc, if_neg (Ne.symm hc)]
  | none =>
      rw [hfound, bind_ok] at hrun
      obtain ⟨_, s₄, hsave, hnotify⟩ := hrun
      have hlast : s'.executions = s₄.executions := notifyExecuted_keeps _ _ _ _ hnotify
      obtain ⟨-, hfind⟩ := saveRecord_find (h := h) hsave
      by_cases hc : c = h
      · subst hc
        rw [if_pos rfl] at hfind ⊢
        rw [Service.statusOf, hlast, hfind]
        rfl
      · rw [if_neg hc] at hfind ⊢
        rw [Service.statusOf, hlast, hfind]
        exact (hwritten h).trans (if_neg (Ne.symm hc))

theorem handleCancelled_statusOf {c tx : String} {b : UInt64} {u : Unit}
    (hrun : svc.handleCancelled env c tx b s = .ok u s') :
    s'.statusOf h = if c = h then statusStep (s.statusOf h) .cancelled else s.statusOf h := by
  unfold IndexerService.handleCancelled at hrun
  simp only [bind_ok] at hrun
  obtain ⟨k, s₁, hlookup, _, s₂, hfinish, hupdate⟩ := hrun
  have hkeep := terminal_prefix hlookup hfinish
  have hstatus : s₂.statusOf h = s.statusOf h := by
    unfold Service.statusOf
    rw [hkeep]
  rw [updateRecord_statusOf hupdate, hstatus]
  simp only [statusStep, eq_comm]

theorem handleExpired_statusOf {c : String} {b : UInt64} {u : Unit}
    (hrun : svc.handleExpired env c b s = .ok u s') :
    s'.statusOf h = if c = h then statusStep (s.statusOf h) .expired else s.statusOf h := by
  unfold IndexerService.handleExpired at hrun
  simp only [bind_ok] at hrun
  obtain ⟨k, s₁, hlookup, _, s₂, hfinish, hupdate⟩ := hrun
  have hkeep := terminal_prefix hlookup hfinish
  have hstatus : s₂.statusOf h = s.statusOf h := by
    unfold Service.statusOf
    rw [hkeep]
  rw [updateRecord_statusOf hupdate, hstatus]
  simp only [statusStep, eq_comm]

/-- Every handler that returns nil takes the automaton's step at its own
commitment and none elsewhere. -/
theorem statusOf_run {c : HandlerCall} {u : Unit} (hrun : c.run svc env s = .ok u s') :
    s'.statusOf h
      = if c.commitmentHash = h then statusStep (s.statusOf h) c.status
        else s.statusOf h := by
  cases c with
  | registered => exact handleRegistered_statusOf hrun
  | executed => exact handleExecuted_statusOf hrun
  | cancelled => exact handleCancelled_statusOf hrun
  | expired => exact handleExpired_statusOf hrun

-- ======================================================= sequences of calls

/-- Handler calls one after the other, each returning nil. -/
def handlers (svc : IndexerService) : Machine Service (Env × HandlerCall) where
  step call s :=
    match call.2.run svc call.1 s with
    | .ok _ s' => some s'
    | _ => none

/-- The events of `h` among the calls, in their order. -/
def eventsOf (h : String) (calls : List (Env × HandlerCall)) : List ExecutionStatus :=
  calls.filterMap fun c => if c.2.commitmentHash = h then some c.2.status else none

/-- The status after a sequence of calls is the automaton's. -/
theorem statusOf_play {calls : List (Env × HandlerCall)} {s s' : Service}
    (hplay : (handlers svc).play calls s = some s') :
    s'.statusOf h = (eventsOf h calls).foldl statusStep (s.statusOf h) := by
  induction calls generalizing s with
  | nil =>
      cases hplay
      rfl
  | cons call calls ih =>
      obtain ⟨t, hstep, hrest⟩ := Option.bind_eq_some_iff.1 hplay
      have hfirst : t.statusOf h
          = if call.2.commitmentHash = h then statusStep (s.statusOf h) call.2.status
            else s.statusOf h := by
        unfold handlers at hstep
        cases hrun : call.2.run svc call.1 s with
        | ok u s₁ =>
            simp only [hrun, Option.some.injEq] at hstep
            subst hstep
            exact statusOf_run hrun
        | err e s₁ => simp [hrun] at hstep
        | panic text => simp [hrun] at hstep
      rw [ih hrest, hfirst]
      unfold eventsOf
      by_cases hc : call.2.commitmentHash = h
      · simp [hc]
      · simp [hc]

/-- Once there is a row, a terminal event decides its status. -/
theorem foldl_some {t : ExecutionStatus} {events : List ExecutionStatus}
    (hevents : ∀ e ∈ events, e = .registered ∨ e = t) (ht : t ≠ .registered)
    (current : ExecutionStatus) :
    events.foldl statusStep (some current) = some (if t ∈ events then t else current) := by
  induction events generalizing current with
  | nil => rfl
  | cons e events ih =>
      have hrest := ih fun e' he' => hevents e' (List.mem_cons_of_mem e he')
      rw [List.foldl_cons]
      rcases hevents e List.mem_cons_self with rfl | rfl
      · have hstep : statusStep (some current) .registered = some current := rfl
        rw [hstep, hrest]
        simp [ht]
      · have hstep : statusStep (some current) e = some e := by
          cases e with
          | registered => exact absurd rfl ht
          | executed => rfl
          | cancelled => rfl
          | expired => rfl
        rw [hstep, hrest]
        simp

/-- Without a row, a terminal event counts if it is the executed event or
comes after a registered one. -/
theorem foldl_none {t : ExecutionStatus} {events : List ExecutionStatus}
    (hevents : ∀ e ∈ events, e = .registered ∨ e = t) (ht : t ≠ .registered) :
    events.foldl statusStep none = some t
      ↔ (t = .executed ∧ t ∈ events) ∨ [.registered, t].Sublist events := by
  induction events with
  | nil => simp
  | cons e events ih =>
      have hrest : ∀ e' ∈ events, e' = .registered ∨ e' = t :=
        fun e' he' => hevents e' (List.mem_cons_of_mem e he')
      rw [List.foldl_cons]
      by_cases he : e = .registered
      · subst he
        have hstep : statusStep none .registered = some .registered := rfl
        rw [hstep, foldl_some hrest ht, List.cons_sublist_cons, List.singleton_sublist]
        by_cases hmem : t ∈ events
        · simp [hmem]
        · simp [hmem, ht, Ne.symm ht]
      · have het : e = t := (hevents e List.mem_cons_self).resolve_left he
        subst het
        have hsub : [.registered, e].Sublist (e :: events) ↔ [.registered, e].Sublist events :=
          List.sublist_cons_iff.trans (or_iff_left (by simp [Ne.symm he]))
        rw [hsub]
        by_cases hexec : e = .executed
        · subst hexec
          have hstep : statusStep none .executed = some .executed := rfl
          rw [hstep, foldl_some hrest ht]
          simp
        · have hstep : statusStep none e = none := by
            cases e with
            | registered => exact absurd rfl he
            | executed => exact absurd rfl hexec
            | cancelled => rfl
            | expired => rfl
          rw [hstep, ih hrest]
          simp [hexec]

-- =============================================================== convergence

/-- `execution_records` has exactly one row for `h`, with status `t`. -/
def Converged (s : Service) (h : String) (t : ExecutionStatus) : Prop :=
  ∃ record, s.executions.rows.filter (fun r => r.commitmentHash = h) = [record]
    ∧ record.status = t

theorem converged_iff {t : ExecutionStatus} : Converged s h t ↔ s.statusOf h = some t := by
  unfold Converged Service.statusOf
  rw [Table.rows_of_key]
  cases s.executions.find h with
  | none => simp
  | some record => simp

/-- The records converge exactly when the row is there by the time a
terminal event writes it. -/
theorem records_converge_iff (svc : IndexerService) (h : String) (t : ExecutionStatus)
    (ht : t ≠ .registered) (calls : List (Env × HandlerCall)) (s s' : Service)
    (hfresh : s.executions.find h = none)
    (hcalls : ∀ e ∈ eventsOf h calls, e = .registered ∨ e = t)
    (hterminal : t ∈ eventsOf h calls)
    (hplay : (handlers svc).play calls s = some s') :
    Converged s' h t ↔ t = .executed ∨ [.registered, t].Sublist (eventsOf h calls) := by
  have hstart : s.statusOf h = none := by
    unfold Service.statusOf
    rw [hfresh]
    rfl
  rw [converged_iff, statusOf_play hplay, hstart, foldl_none hcalls ht]
  exact or_congr_left (and_iff_left hterminal)

-- ================================================================== examples

theorem records_converge_iff_sample :
    ∃ s', (handlers productionIndexer).play
        [(calmEnv, .registered sampleHash "ORDER_FILL" 421614 100),
          (calmEnv, .cancelled sampleHash "0x01" 7)] freshService = some s'
      ∧ Converged s' sampleHash .cancelled := by
  refine ⟨_, rfl, ?_⟩
  exact (records_converge_iff productionIndexer sampleHash .cancelled (by decide)
    [(calmEnv, .registered sampleHash "ORDER_FILL" 421614 100),
      (calmEnv, .cancelled sampleHash "0x01" 7)] freshService _ rfl
    (by decide) (by decide) rfl).2 (.inr (by decide))

/-- The indexer starts after the registration and sees only the
cancellation: the update finds no row and reports no error. -/
theorem cancellation_without_row :
    ∃ s', (handlers productionIndexer).play
        [(calmEnv, .cancelled sampleHash "0x01" 7)] freshService = some s'
      ∧ ¬ Converged s' sampleHash .cancelled := by
  refine ⟨_, rfl, ?_⟩
  rw [converged_iff]
  decide

end Zstrategy.Backend
