/-
How long the keeper has the shares of an order. The indexer asks for
shares to be dropped when it handles the log of an ending, and a log comes
from the chain, so every request names a commitment that is settled there,
and settled commitments stay settled. Whatever the delays, an order that
is not settled has lost no share, and its secret is that of the split
posted last.

The request runs in a goroutine of its own: it may arrive at any time
after the log was handled, or never.

# What is said of the handlers

Only `pruneKeeperShares` asks for shares to be dropped. Of everything else a
handler calls, `…_ends` says that it leaves the requests as they were, for
any relation that only looks at them (`Ends R`), so that one pass over the
code serves the two facts that are needed: a handler requests at most the
drop of its own hash (`run_requests`), and a handler of an ending that
returns has requested it (`…_asks`). `…_sure` says that a call has no error
of its own, so that the code after it is reached whatever the database
answers.

# The system

`ShareState` puts the chain, the indexer and the keeper's table side by
side, and `ShareMove` moves one of them: a transaction, the handling of any
log that is out, a request that arrives, a posting of shares. `DropsSettled`
is the invariant: every request, sent or arrived, names a commitment that is
settled by now.
-/
import Zstrategy.Backend.Mirror
import Zstrategy.Custody.Settlement
import Zstrategy.Keeper.ShareHistory

namespace Zstrategy.Backend

open Lib Go Contracts Keeper

variable {svc : IndexerService} {env : Env} {c : String}

-- ========================================================== what a handler requests

section Handlers

variable {R : Service → Service → Prop} (hsame : ∀ s t : Service, t.prunes = s.prunes → R s t)
  (htrans : ∀ s t u, R s t → R t u → R s u)

include hsame

/-- Cutting a hash for a log line requests nothing. -/
theorem short_ends (c : String) : Ends R (short c) :=
  .unlessPanic (fun s => hsame s s rfl) _ _

/-- Nor does waking the waiters. -/
theorem notifyExecuted_ends (record : ExecutionRecord) :
    Ends R (IndexerService.notifyExecuted record) :=
  .modify fun s => hsame s _ rfl

include htrans

/-- Nor does the update of a strategy, whether it fails or not. -/
theorem updateStatus_ends (fault : Fault) (now : ℤ) (c : String) (status : StrategyStatus) :
    Ends R (MonitorService.updateStatus fault now c status) := by
  have hrefl : ∀ s, R s s := fun s => hsame s s rfl
  have hstop : Ends R (if status = .DONE then
      modify (Service.onMonitors (Monitors.stopMonitoring c)) else pure ()) := by
    by_cases hdone : status = .DONE
    · rw [if_pos hdone]
      exact .modify fun s => hsame s _ rfl
    · rw [if_neg hdone]
      exact .pure hrefl ()
  unfold MonitorService.updateStatus
  refine .bind htrans (.read hrefl) fun t => ?_
  cases StrategyRepo.updateStatus fault now c status t.strategies with
  | ok t' => exact .bind htrans (.modify fun s => hsame s _ rfl) fun _ => hstop
  | error e => exact .bind htrans (short_ends hsame c) fun _ => hstop

/-- Nor does looking up a kind for the metrics. -/
theorem lookupKindLabel_ends (c : String) : Ends R (svc.lookupKindLabel env c) := by
  have hrefl : ∀ s, R s s := fun s => hsame s s rfl
  unfold IndexerService.lookupKindLabel
  refine .bind htrans (.read hrefl) fun t => ?_
  split
  · exact .pure hrefl _
  · split
    · split <;> exact .pure hrefl _
    · exact .pure hrefl _

/-- Nor does finding the kind of a new record. -/
theorem recordKind_ends (c kind : String) : Ends R (svc.recordKind env c kind) := by
  have hrefl : ∀ s, R s s := fun s => hsame s s rfl
  unfold IndexerService.recordKind
  refine .bind htrans (.read hrefl) fun t => ?_
  split
  · refine .bind htrans (.check hrefl _) fun pending => ?_
    split <;> exact .pure hrefl _
  · exact .pure hrefl _

/-- Nor does saving it. -/
theorem saveRecord_ends (fault : Fault) (record : ExecutionRecord) :
    Ends R (IndexerService.saveRecord fault record) := by
  have hrefl : ∀ s, R s s := fun s => hsame s s rfl
  unfold IndexerService.saveRecord
  refine .bind htrans (.read hrefl) fun t => ?_
  exact .bind htrans (.check hrefl _) fun _ => .modify fun s => hsame s _ rfl

/-- Nor does updating it. -/
theorem updateRecord_ends (fault : Fault) (c tx : String) (status : ExecutionStatus)
    (b g : UInt64) (t : Option ℤ) :
    Ends R (IndexerService.updateRecord fault c status tx b g t) := by
  have hrefl : ∀ s, R s s := fun s => hsame s s rfl
  unfold IndexerService.updateRecord
  refine .bind htrans (.read hrefl) fun t => ?_
  exact .bind htrans (.check hrefl _) fun _ => .modify fun s => hsame s _ rfl

/-- A registration requests nothing. -/
theorem handleRegistered_ends (c kind : String) (chainID t : ℤ) :
    Ends R (svc.handleRegistered env c kind chainID t) := by
  have hrefl : ∀ s, R s s := fun s => hsame s s rfl
  unfold IndexerService.handleRegistered
  refine .bind htrans (.read hrefl) fun s => .bind htrans (.check hrefl _) fun found => ?_
  split
  · exact .pure hrefl ()
  · exact .bind htrans (recordKind_ends hsame htrans c kind) fun k =>
      saveRecord_ends hsame htrans _ _

/-- An ending requests what `pruneKeeperShares` does. -/
theorem finishStrategy_ends (hprune : Ends R (svc.pruneKeeperShares c)) :
    Ends R (svc.finishStrategy env c) := by
  unfold IndexerService.finishStrategy
  by_cases hmon : svc.hasMonitor = true
  · rw [if_pos hmon]
    refine .bind htrans (.modify fun s => hsame s _ rfl) fun _ => ?_
    exact .bind htrans (updateStatus_ends hsame htrans _ _ c _) fun _ => hprune
  · rw [if_neg hmon]
    exact hprune

/-- What `handleExecuted` does once the strategy is finished. -/
theorem handleExecuted_rest (svc : IndexerService) (env : Env) (c tx : String)
    (chainID t : ℤ) (b g : UInt64) :
    ∃ rest : StrategyKind → Go Service Unit, (∀ kind, Ends R (rest kind))
      ∧ svc.handleExecuted env c tx chainID b g t = (do
        let kind ← svc.lookupKindLabel env c
        svc.finishStrategy env c
        rest kind) := by
  refine ⟨_, fun kind => ?_, rfl⟩
  have hrefl : ∀ s, R s s := fun s => hsame s s rfl
  refine .bind htrans (updateRecord_ends hsame htrans _ _ _ _ _ _ _) fun _ => ?_
  refine .bind htrans (.read hrefl) fun s => .bind htrans (.check hrefl _) fun found => ?_
  cases found with
  | some record => exact notifyExecuted_ends hsame record
  | none => exact .bind htrans (saveRecord_ends hsame htrans _ _) fun _ =>
      notifyExecuted_ends hsame _

/-- All that `HandleExecuted` requests, `pruneKeeperShares` does. -/
theorem handleExecuted_ends (hprune : Ends R (svc.pruneKeeperShares c)) (tx : String)
    (chainID t : ℤ) (b g : UInt64) : Ends R (svc.handleExecuted env c tx chainID b g t) := by
  obtain ⟨rest, hrest, heq⟩ := handleExecuted_rest hsame htrans svc env c tx chainID t b g
  rw [heq]
  refine .bind htrans (lookupKindLabel_ends hsame htrans c) fun kind => ?_
  exact .bind htrans (finishStrategy_ends hsame htrans hprune) fun _ => hrest kind

/-- Likewise `HandleCancelled`. -/
theorem handleCancelled_ends (hprune : Ends R (svc.pruneKeeperShares c)) (tx : String)
    (b : UInt64) : Ends R (svc.handleCancelled env c tx b) := by
  unfold IndexerService.handleCancelled
  refine .bind htrans (lookupKindLabel_ends hsame htrans c) fun _ => ?_
  refine .bind htrans (finishStrategy_ends hsame htrans hprune) fun _ => ?_
  exact updateRecord_ends hsame htrans _ _ _ _ _ _ _

/-- Likewise `HandleExpired`. -/
theorem handleExpired_ends (hprune : Ends R (svc.pruneKeeperShares c)) (b : UInt64) :
    Ends R (svc.handleExpired env c b) := by
  unfold IndexerService.handleExpired
  refine .bind htrans (lookupKindLabel_ends hsame htrans c) fun _ => ?_
  refine .bind htrans (finishStrategy_ends hsame htrans hprune) fun _ => ?_
  exact updateRecord_ends hsame htrans _ _ _ _ _ _ _

end Handlers

/-- Every request after `s` is for one of `hs`. -/
def Service.Requests (hs : List String) (s t : Service) : Prop :=
  ∀ h ∈ t.prunes, h ∈ s.prunes ∨ h ∈ hs

/-- Requesting nothing is requesting some of any hashes. -/
theorem Service.Requests.of_same (hs : List String) (s t : Service) (h : t.prunes = s.prunes) :
    s.Requests hs t := by
  intro x hx
  rw [h] at hx
  exact Or.inl hx

/-- Requests of one part after another. -/
theorem Service.Requests.trans (hs : List String) (s t u : Service) (h : s.Requests hs t)
    (h' : t.Requests hs u) : s.Requests hs u :=
  fun x hx => (h' x hx).elim (h x) Or.inr

/-- `pruneKeeperShares` requests the drop of its hash. -/
theorem pruneKeeperShares_requests (c : String) :
    Ends (Service.Requests [c]) (svc.pruneKeeperShares c) := by
  unfold IndexerService.pruneKeeperShares
  by_cases hurl : svc.keeperURL = ""
  · rw [if_pos hurl]
    exact .pure (fun s => .of_same [c] s s rfl) ()
  · rw [if_neg hurl]
    refine .modify fun s h hh => ?_
    exact List.mem_append.1 hh

/-- What a call can request. -/
def HandlerCall.drops (call : HandlerCall) : List String :=
  if call.status = .registered then [] else [call.commitmentHash]

/-- A handler requests at most the drop of its own hash, and the handler of
a registration nothing. -/
theorem run_requests (call : HandlerCall) :
    Ends (Service.Requests call.drops) (call.run svc env) := by
  cases call with
  | registered h kind chainID t =>
      exact handleRegistered_ends (Service.Requests.of_same []) (Service.Requests.trans []) _ _ _ _
  | executed h tx chainID b g t =>
      exact handleExecuted_ends (Service.Requests.of_same [h]) (Service.Requests.trans [h])
        (pruneKeeperShares_requests h) _ _ _ _ _
  | cancelled h tx b =>
      exact handleCancelled_ends (Service.Requests.of_same [h]) (Service.Requests.trans [h])
        (pruneKeeperShares_requests h) _ _
  | expired h b =>
      exact handleExpired_ends (Service.Requests.of_same [h]) (Service.Requests.trans [h])
        (pruneKeeperShares_requests h) _

/-- The shares of `c` are asked for. -/
def Service.Asks (c : String) (s : Service) : Prop := c ∈ s.prunes

section Asks

/-- It falls back to a label of its own where the database fails. -/
theorem lookupKindLabel_sure (c : String) : Sure (svc.lookupKindLabel env c) := by
  unfold IndexerService.lookupKindLabel
  refine .bind .read fun t => ?_
  split
  · exact .pure _
  · split
    · split <;> exact .pure _
    · exact .pure _

/-- A strategy that cannot be updated is logged, and the handler goes on. -/
theorem updateStatus_sure (fault : Fault) (now : ℤ) (c : String) (status : StrategyStatus) :
    Sure (MonitorService.updateStatus fault now c status) := by
  have hstop : Sure (if status = .DONE then
      modify (Service.onMonitors (Monitors.stopMonitoring c)) else pure ()) := by
    by_cases hdone : status = .DONE
    · rw [if_pos hdone]
      exact .modify _
    · rw [if_neg hdone]
      exact .pure ()
  unfold MonitorService.updateStatus
  refine .bind .read fun t => ?_
  cases StrategyRepo.updateStatus fault now c status t.strategies with
  | ok t' => exact .bind (.modify _) fun _ => hstop
  | error e => exact .bind (.unlessPanic _ _) fun _ => hstop

variable (hurl : svc.keeperURL ≠ "")

include hurl

/-- With a keeper configured, finishing a strategy requests the drop. -/
theorem finishStrategy_asks : Ends (fun _ => Service.Asks c) (svc.finishStrategy env c) := by
  have hprune : Ends (fun _ => Service.Asks c) (svc.pruneKeeperShares c) := by
    unfold IndexerService.pruneKeeperShares
    rw [if_neg hurl]
    exact .modify fun s => List.mem_append_right _ (List.mem_singleton_self c)
  unfold IndexerService.finishStrategy
  by_cases hmon : svc.hasMonitor = true
  · rw [if_pos hmon]
    refine Sure.ends (.modify _) fun _ => ?_
    exact Sure.ends (updateStatus_sure _ _ c _) fun _ => hprune
  · rw [if_neg hmon]
    exact hprune

/-- Whatever fails after it, an ending has asked for the drop. -/
theorem run_asks {call : HandlerCall} (hcall : call.status ≠ .registered)
    (hc : call.commitmentHash = c) : Ends (fun _ => Service.Asks c) (call.run svc env) := by
  have hsame : ∀ s t : Service, t.prunes = s.prunes → s.Asks c → t.Asks c := by
    intro s t hprunes hs
    unfold Service.Asks
    rw [hprunes]
    exact hs
  have htrans : ∀ s t u : Service, (s.Asks c → t.Asks c) → (t.Asks c → u.Asks c) →
      s.Asks c → u.Asks c := fun s t u h h' hs => h' (h hs)
  cases call with
  | registered => exact absurd rfl hcall
  | executed h tx chainID b g t =>
      cases hc
      obtain ⟨rest, hrest, heq⟩ :=
        handleExecuted_rest hsame htrans svc env h tx chainID t b g
      show Ends _ (svc.handleExecuted env h tx chainID b g t)
      rw [heq]
      exact (lookupKindLabel_sure h).ends fun kind => (finishStrategy_asks hurl).andThen fun _ =>
        hrest kind
  | cancelled h tx b =>
      cases hc
      exact (lookupKindLabel_sure h).ends fun kind => (finishStrategy_asks hurl).andThen fun _ =>
        updateRecord_ends hsame htrans _ _ _ _ _ _ _
  | expired h b =>
      cases hc
      exact (lookupKindLabel_sure h).ends fun kind => (finishStrategy_asks hurl).andThen fun _ =>
        updateRecord_ends hsame htrans _ _ _ _ _ _ _

end Asks

-- ==================================================================== one log

section Logs

variable {keccak : String → Bytes32} {ci : ChainIndexer} {s s' : Service}

/-- Handling a log requests a drop only for the commitment it ends. -/
theorem handleLog_requests (hk : DistinctTopics keccak) (d : LogDelivery)
    (hrun : ci.handleLog keccak d.node env (encodeLog keccak d.event d.txHash d.blockNumber) s
      = .ok () s') :
    ∀ h ∈ s'.prunes, h ∈ s.prunes
      ∨ ∃ st c, lifecycle d.event = some (st, c) ∧ st ≠ .registered ∧ h = hexHash c := by
  intro h hh
  unfold ChainIndexer.handleLog at hrun
  obtain ⟨call, t, hcall, hrest⟩ := bind_ok.1 hrun
  cases hlife : lifecycle d.event with
  | none =>
      by_cases hs : isStalenessSet d.event
      · rw [handlerCall_staleness ci d.node env.now d.txHash d.blockNumber hs] at hcall
        cases hcall
      · rw [handlerCall_other ci d.node env.now hk d.txHash d.blockNumber hlife hs] at hcall
        cases hcall
        obtain ⟨-, rfl⟩ := pure_eq_ok.1 hrest
        exact Or.inl hh
  | some x =>
      obtain ⟨st, c⟩ := x
      obtain ⟨call', hst, hhash, hcall'⟩ :=
        handlerCall_lifecycle (σ := Service) ci d.node env.now hk d.txHash d.blockNumber hlife
      rw [hcall'] at hcall
      cases hcall
      obtain ⟨_, u, hattempt, hdone⟩ := bind_ok.1 hrest
      obtain ⟨-, rfl⟩ := pure_eq_ok.1 hdone
      have hrequests : Ends (Service.Requests call'.drops) (call'.run ci.svc env) :=
        run_requests call'
      rcases hrequests.attempt.of_ok hattempt h hh with hold | hnew
      · exact Or.inl hold
      · unfold HandlerCall.drops at hnew
        rw [hst, hhash] at hnew
        by_cases hreg : st = .registered
        · rw [if_pos hreg] at hnew
          cases hnew
        · rw [if_neg hreg] at hnew
          exact Or.inr ⟨st, c, rfl, hreg, List.mem_singleton.1 hnew⟩

/-- Handling the log of an ending asks for the drop. -/
theorem handleLog_asks (hk : DistinctTopics keccak) (hurl : ci.svc.keeperURL ≠ "")
    (d : LogDelivery) {st : ExecutionStatus} {c : Bytes32}
    (hlife : lifecycle d.event = some (st, c)) (hst : st ≠ .registered)
    (hrun : ci.handleLog keccak d.node env (encodeLog keccak d.event d.txHash d.blockNumber) s
      = .ok () s') : s'.Asks (hexHash c) := by
  unfold ChainIndexer.handleLog at hrun
  obtain ⟨call, t, hcall, hrest⟩ := bind_ok.1 hrun
  obtain ⟨call', hstatus, hhash, hcall'⟩ :=
    handlerCall_lifecycle (σ := Service) ci d.node env.now hk d.txHash d.blockNumber hlife
  rw [hcall'] at hcall
  cases hcall
  obtain ⟨_, u, hattempt, hdone⟩ := bind_ok.1 hrest
  obtain ⟨-, rfl⟩ := pure_eq_ok.1 hdone
  have hasks : Ends (fun _ => Service.Asks (hexHash c)) (call'.run ci.svc env) :=
    run_asks hurl (by rw [hstatus]; exact hst) hhash
  exact hasks.attempt.of_ok hattempt

/-- A commitment whose ending is in the log is settled. -/
theorem settled_of_log {net : Net} {w w' : World} {P : World → ChainMove → Prop}
    (hd : Deployed w) (hrun : (chain net).Run P ⟨w, []⟩ ⟨w', []⟩) {e : RegistryEvent}
    (he : e ∈ w'.registryLog) {st : ExecutionStatus} {c : Bytes32}
    (hlife : lifecycle e = some (st, c)) (hst : st ≠ .registered) :
    (w'.registry.commitments c).status.Terminal := by
  obtain ⟨htold, hfree⟩ := told_run hd hrun
  have hhistory : history (w'.registry.commitments c).status
      = w'.registryLog.filterMap (saysOf c) := by
    have hreplay := history_replay htold.legal c
    rw [htold.slots hfree] at hreplay
    exact hreplay
  have hmem : st ∈ history (w'.registry.commitments c).status := by
    rw [hhistory]
    exact List.mem_filterMap.2 ⟨e, he, by simp [saysOf, hlife]⟩
  cases hstatus : (w'.registry.commitments c).status with
  | NONE =>
      rw [hstatus] at hmem
      cases hmem
  | PENDING =>
      rw [hstatus] at hmem
      exact absurd (List.mem_singleton.1 hmem) hst
  | EXECUTED | CANCELLED | EXPIRED => trivial

end Logs

-- =================================================================== the system

variable {lib : Threshold} {keys : Keyset lib} {k : ℕ}

/-- The chain, the backend, and the calls the keeper's store has had. -/
structure ShareState (keys : Keyset lib) (k : ℕ) where
  world : World
  service : Service
  calls : List (ShareCall keys k)

/-- What happens between two points at which no transaction is under way. -/
inductive ShareMove (net : Net) (keccak : String → Bytes32) (ci : ChainIndexer) :
    ShareState keys k → ShareState keys k → Prop
  /-- Transactions, of anybody. -/
  | chain {st : ShareState keys k} {w : World}
      (hrun : (chain net).Run anyMove ⟨st.world, []⟩ ⟨w, []⟩) :
      ShareMove net keccak ci st { st with world := w }
  /-- The indexer handles a log of the chain, whatever fails. -/
  | log {st : ShareState keys k} {s : Service} (d : LogDelivery) (db : ℕ → Fault)
      (hd : d.event ∈ st.world.registryLog)
      (hrun : ci.handleLog keccak d.node ⟨db, d.now⟩
        (encodeLog keccak d.event d.txHash d.blockNumber) st.service = .ok () s) :
      ShareMove net keccak ci st { st with service := s }
  /-- The rest of the backend. -/
  | backend {st : ShareState keys k} {s : Service} (hs : s.prunes = st.service.prunes) :
      ShareMove net keccak ci st { st with service := s }
  /-- A request to drop the shares of a commitment arrives. -/
  | prune {st : ShareState keys k} {h : String} (hh : h ∈ st.service.prunes) :
      ShareMove net keccak ci st { st with calls := st.calls ++ [.delete h] }
  /-- Somebody has a split posted, for any hashes. -/
  | post {st : ShareState keys k} (now : ℤ) (commitmentHashes : List String)
      (split : SealedSplit keys k) :
      ShareMove net keccak ci st
        { st with calls := st.calls ++ [.insert now commitmentHashes split] }

/-- `h` names a commitment that is settled in `w`. -/
def SettledText (w : World) (h : String) : Prop :=
  ∃ c, h = hexHash c ∧ (w.registry.commitments c).status.Terminal

/-- Who was asked, or has obeyed, dropped shares of settled commitments. -/
structure DropsSettled (st : ShareState keys k) : Prop where
  prunes : ∀ h ∈ st.service.prunes, SettledText st.world h
  deletes : ∀ h, ShareCall.delete h ∈ st.calls → SettledText st.world h

/-- Settled commitments stay settled. -/
theorem SettledText.later {net : Net} {w w' : World} {h : String} (hs : SettledText w h)
    (hrun : (chain net).Run anyMove ⟨w, []⟩ ⟨w', []⟩) : SettledText w' h := by
  obtain ⟨c, rfl, hterminal⟩ := hs
  obtain ⟨d, m, es, rs, hp, -⟩ := run_tracks allows_any hrun
  have hstays := (evolves_path hp c).follows.terminal hterminal
  refine ⟨c, rfl, ?_⟩
  show (w'.book.record c).status.Terminal
  rw [hstays]
  exact hterminal

section Runs

variable {net : Net} {keccak : String → Bytes32} {ci : ChainIndexer} {w : World}
  {st st' : ShareState keys k}

/-- Every move keeps the run of the chain a run, and the requests about
settled commitments. -/
theorem DropsSettled.move (hk : DistinctTopics keccak) (hd : Deployed w)
    (hrun : (chain net).Run anyMove ⟨w, []⟩ ⟨st.world, []⟩) (hs : DropsSettled st)
    (hmove : ShareMove net keccak ci st st') :
    (chain net).Run anyMove ⟨w, []⟩ ⟨st'.world, []⟩ ∧ DropsSettled st' := by
  cases hmove with
  | chain hmore =>
      refine ⟨hrun.trans hmore, fun h hh => ?_, fun h hh => ?_⟩
      · exact (hs.prunes h hh).later hmore
      · exact (hs.deletes h hh).later hmore
  | log d db hd' hlog =>
      refine ⟨hrun, fun h hh => ?_, hs.deletes⟩
      rcases handleLog_requests hk d hlog h hh with hold | ⟨e, c, hlife, hst, rfl⟩
      · exact hs.prunes h hold
      · exact ⟨c, rfl, settled_of_log hd hrun hd' hlife hst⟩
  | backend hsame =>
      refine ⟨hrun, fun h hh => ?_, hs.deletes⟩
      rw [hsame] at hh
      exact hs.prunes h hh
  | @prune h hh =>
      refine ⟨hrun, hs.prunes, fun x hx => ?_⟩
      rcases List.mem_append.1 hx with hold | hnew
      · exact hs.deletes x hold
      · cases List.mem_singleton.1 hnew
        exact hs.prunes h hh
  | post now hashes split =>
      refine ⟨hrun, hs.prunes, fun x hx => ?_⟩
      rcases List.mem_append.1 hx with hold | hnew
      · exact hs.deletes x hold
      · cases List.mem_singleton.1 hnew

end Runs

/-- After a drop nothing is left. -/
theorem getShares_drop (calls : List (ShareCall keys k)) (h : String) :
    getSharesForCommitment (tableAfter (calls ++ [.delete h])) h = [] := by
  unfold tableAfter
  rw [List.foldl_append]
  refine List.filter_eq_nil_iff.2 fun row hrow => ?_
  obtain ⟨-, hother⟩ := List.mem_filter.1 hrow
  simpa using hother

/-- Once a commitment is settled its ending is in the log. Whatever fails
while that log is handled, unless the indexer panics, the keeper is asked
to drop the shares, and nothing panics if nothing fails. The indexer needs
the keeper's address for that: without one it asks nobody. -/
theorem settled_order_drops_shares {net : Net} {keccak : String → Bytes32} {ci : ChainIndexer}
    (hk : DistinctTopics keccak) (hurl : ci.svc.keeperURL ≠ "") {w : World}
    {st : ShareState keys k} (hd : Deployed w)
    (hrun : (chain net).Run anyMove ⟨w, []⟩ ⟨st.world, []⟩) {c : Bytes32}
    (hsettled : (st.world.registry.commitments c).status.Terminal) :
    ∃ e ∈ st.world.registryLog, e.about = some c ∧ ∀ d : LogDelivery, d.event = e →
      (∃ s, ci.handleLog keccak d.node (faultless d.now)
        (encodeLog keccak d.event d.txHash d.blockNumber) st.service = .ok () s)
      ∧ ∀ db s, ci.handleLog keccak d.node ⟨db, d.now⟩
          (encodeLog keccak d.event d.txHash d.blockNumber) st.service = .ok () s →
        ShareMove net keccak ci { st with service := s }
            { st with service := s, calls := st.calls ++ [.delete (hexHash c)] }
          ∧ getSharesForCommitment (tableAfter (st.calls ++ [.delete (hexHash c)])) (hexHash c)
            = [] := by
  obtain ⟨htold, hfree⟩ := told_run hd hrun
  have hhistory : history (st.world.registry.commitments c).status
      = st.world.registryLog.filterMap (saysOf c) := by
    have hreplay := history_replay htold.legal c
    rw [htold.slots hfree] at hreplay
    exact hreplay
  obtain ⟨ending, hending, hne⟩ :
      ∃ x ∈ history (st.world.registry.commitments c).status, x ≠ .registered := by
    cases hstatus : (st.world.registry.commitments c).status with
    | NONE | PENDING =>
        rw [hstatus] at hsettled
        exact hsettled.elim
    | EXECUTED => exact ⟨.executed, by simp [history], by decide⟩
    | CANCELLED => exact ⟨.cancelled, by simp [history], by decide⟩
    | EXPIRED => exact ⟨.expired, by simp [history], by decide⟩
  rw [hhistory] at hending
  obtain ⟨e, he, hsays⟩ := List.mem_filterMap.1 hending
  have hlife : lifecycle e = some (ending, c) := by
    obtain ⟨x, hx, hif⟩ := Option.bind_eq_some_iff.1 hsays
    by_cases hc : x.2 = c
    · rw [if_pos hc] at hif
      rw [hx, ← Option.some.inj hif, ← hc]
    · rw [if_neg hc] at hif
      cases hif
  have hquiet : ¬isStalenessSet e := by
    cases e with
    | OracleStalenessSet => cases hlife
    | _ => exact id
  refine ⟨e, he, ?_, ?_⟩
  · cases e <;> cases hlife <;> rfl
  rintro d rfl
  obtain ⟨s, hs, -⟩ := @handleLog_statusOf keccak ci hk d hquiet st.service
  refine ⟨⟨s, hs⟩, fun db s hs => ⟨?_, getShares_drop st.calls (hexHash c)⟩⟩
  exact .prune (handleLog_asks hk hurl d hlife hne hs)

-- ==================================================================== samples

/-- User 8 registers two orders and cancels the second. -/
def twoOrders : World :=
  (chain sampleNet).endState (sampleSetup
    ++ [call 8 (.registerCommitment 99 10 11 30 1 2000 .ORDER_FILL),
      call 8 (.registerCommitment 98 10 11 20 1 2000 .ORDER_FILL),
      call 8 (.cancelCommitment 98 5)]) sampleWorld

/-- The log of the cancellation, with the shares of both orders posted. -/
theorem settled_order_drops_shares_sample :
    ∃ e ∈ twoOrders.registryLog, e.about = some 98 ∧ ∀ d : LogDelivery, d.event = e →
      ∃ s : Service, s.Asks (hexHash 98)
        ∧ getSharesForCommitment (tableAfter ([.insert 5 [hexHash 98] sampleSplit]
          ++ [.delete (hexHash 98)])) (hexHash 98) = [] := by
  have hchain : (chain sampleNet).Run anyMove ⟨sampleWorld, []⟩ ⟨twoOrders, []⟩ :=
    .of_endState (fun _ _ _ => trivial) rfl
  have hcancelled : (twoOrders.registry.commitments 98).status.Terminal := trivial
  let st : ShareState sampleKeys 2 :=
    ⟨twoOrders, freshService, [.insert 5 [hexHash 98] sampleSplit]⟩
  have hurl : productionChainIndexer.svc.keeperURL ≠ "" := by decide
  obtain ⟨e, he, habout, hhandled⟩ : ∃ e ∈ st.world.registryLog, _ :=
    settled_order_drops_shares registryTopic_distinct hurl sampleWorld_deployed hchain hcancelled
  refine ⟨e, he, habout, fun d hd => ?_⟩
  obtain ⟨⟨s, hs⟩, hany⟩ := hhandled d hd
  obtain ⟨hmove, hgone⟩ := hany _ s hs
  cases hmove with
  | prune hasks => exact ⟨s, hasks, hgone⟩

end Zstrategy.Backend
