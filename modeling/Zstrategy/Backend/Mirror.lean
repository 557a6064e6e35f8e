/-
The record table mirrors the chain. `told_run` says that the
registry's log is legal and tells every slot; here the indexer reads that
log. Each commitment's part of a legal log is nothing, its registration,
or its registration and one ending, and the status automaton of the
handlers takes any such part to the status the slot has. It does so for
every delivery that contains the log as a subsequence and nothing else:
windows read twice after a reconnect, and endings read again before the
registration that was missed.

# Per commitment

The argument is about one hash at a time. Deliveries interleave and repeat
the logs of different hashes, but a handler writes the row of its own hash
only (Records.lean). So the row of `h` is decided by the events of `h` in
the delivery, in their order, and reading pieces of a legal part again does
not change where it ends.
-/
import Zstrategy.Backend.LogSafety
import Zstrategy.Backend.Records
import Zstrategy.Registry.LogReplay

namespace Zstrategy.Backend

open Lib Go Contracts

variable {svc : IndexerService} {env : Env} {keccak : String → Bytes32} {ci : ChainIndexer}
  {s : Service}

-- ================================================================== hash texts

theorem hexHash_toList (x : Bytes32) :
    (hexHash x).toList = '0' :: 'x' :: lastDigits 16 64 x.val := by
  rw [hexHash]
  generalize lastDigits 16 64 x.val = digits
  rw [String.toList_append, String.toList_ofList, String.toList_ofList]
  rfl

/-- The text of a hash determines the hash. -/
theorem hexHash_injective : Function.Injective hexHash := by
  intro a b h
  have hlt : ∀ x : Bytes32, x.val < 16 ^ 64 := fun x => Nat.lt_of_lt_of_le x.isLt (by decide)
  have hlists := congrArg String.toList h
  rw [hexHash_toList, hexHash_toList] at hlists
  have hdigits := List.tail_eq_of_cons_eq (List.tail_eq_of_cons_eq hlists)
  exact Fin.ext (lastDigits_inj (hlt a) (hlt b) hdigits)

-- ========================================================== calls that succeed

section Succeeds

variable {c : String} {now : ℤ}

/-- No database call fails. -/
def faultless (now : ℤ) : Env := ⟨fun _ => none, now⟩

theorem lookupKindLabel_returns : Returns (svc.lookupKindLabel (faultless now) c) s := by
  unfold IndexerService.lookupKindLabel
  refine .bind .read fun t _ _ => ?_
  split
  · exact .pure _
  · split
    · split <;> exact .pure _
    · exact .pure _

theorem recordKind_returns (kind : String) :
    Returns (svc.recordKind (faultless now) c kind) s := by
  unfold IndexerService.recordKind
  refine .bind .read fun t _ _ => ?_
  split
  · refine .bind (.check (t.strategies.find c)) fun pending _ _ => ?_
    split <;> exact .pure _
  · exact .pure _

theorem finishStrategy_returns : Returns (svc.finishStrategy (faultless now) c) s := by
  have hprune : ∀ t, Returns (svc.pruneKeeperShares c) t := by
    intro t
    unfold IndexerService.pruneKeeperShares
    split
    · exact .pure _
    · exact .modify _
  unfold IndexerService.finishStrategy
  split
  · refine .bind (.modify _) fun _ t _ => .bind ?_ fun _ u _ => hprune u
    unfold MonitorService.updateStatus
    refine .bind .read fun v t' _ => .bind (.modify _) fun _ u _ => ?_
    exact .modify _
  · exact hprune s

/-- A row whose key is free can be saved. -/
theorem saveRecord_returns {record : ExecutionRecord}
    (hfree : s.executions.find record.commitmentHash = none) :
    Returns (IndexerService.saveRecord none record) s := by
  obtain ⟨t, ht⟩ := Table.exists_insert hfree
  unfold IndexerService.saveRecord
  refine .bind .read fun u v hread => ?_
  obtain ⟨rfl, rfl⟩ := read_eq_ok.1 hread
  refine .bind ⟨t, s, ?_⟩ fun _ u _ => .modify _
  rw [check_eq_ok]
  exact ⟨ExecutionRepo.save_eq_ok.2 ⟨rfl, ht⟩, rfl⟩

theorem updateRecord_returns {status : ExecutionStatus} {tx : String} {b g : UInt64}
    {t : Option ℤ} : Returns (IndexerService.updateRecord none c status tx b g t) s := by
  unfold IndexerService.updateRecord
  exact .bind .read fun _ _ _ => .bind (.check _) fun _ u _ => .modify _

end Succeeds

/-- Without a database fault a handler returns nil. -/
theorem run_returns (c : HandlerCall) (now : ℤ) : Returns (c.run svc (faultless now)) s := by
  cases c with
  | registered h kind chainID t =>
      refine .bind .read fun u v hread => ?_
      obtain ⟨rfl, rfl⟩ := read_eq_ok.1 hread
      refine .bind (.check (s.executions.find h).isSome) fun found v hcheck => ?_
      obtain ⟨hfound, rfl⟩ := check_eq_ok.1 hcheck
      cases hfound
      split
      next => exact .pure _
      next hnone =>
        refine .bind (recordKind_returns kind) fun k v hkind => saveRecord_returns ?_
        rw [recordKind_keeps h kind s k v hkind]
        exact Option.not_isSome_iff_eq_none.1 hnone
  | executed h tx chainID b g t =>
      refine .bind lookupKindLabel_returns fun kind _ _ => ?_
      refine .bind finishStrategy_returns fun _ _ _ => ?_
      refine .bind updateRecord_returns fun _ v _ => ?_
      refine .bind .read fun u v' hread => ?_
      obtain ⟨rfl, rfl⟩ := read_eq_ok.1 hread
      refine .bind (.check (v.executions.find h)) fun found v' hcheck => ?_
      obtain ⟨hfound, rfl⟩ := check_eq_ok.1 hcheck
      cases found with
      | some record => exact .modify _
      | none => exact .bind (saveRecord_returns (Except.ok.inj hfound)) fun _ _ _ => .modify _
  | cancelled h tx b =>
      refine .bind lookupKindLabel_returns fun kind _ _ => ?_
      exact .bind finishStrategy_returns fun _ _ _ => updateRecord_returns
  | expired h b =>
      refine .bind lookupKindLabel_returns fun kind _ _ => ?_
      exact .bind finishStrategy_returns fun _ _ _ => updateRecord_returns

-- ============================================================== a commitment's log

/-- What the record of a commitment should show. -/
def shown : CommitmentStatus → Option ExecutionStatus
  | .NONE => none
  | .PENDING => some .registered
  | .EXECUTED => some .executed
  | .CANCELLED => some .cancelled
  | .EXPIRED => some .expired

/-- The events a commitment has behind it. -/
def history : CommitmentStatus → List ExecutionStatus
  | .NONE => []
  | .PENDING => [.registered]
  | .EXECUTED => [.registered, .executed]
  | .CANCELLED => [.registered, .cancelled]
  | .EXPIRED => [.registered, .expired]

/-- What one event says of `h`. -/
def saysOf (h : Bytes32) (e : RegistryEvent) : Option ExecutionStatus :=
  (lifecycle e).bind fun x => if x.2 = h then some x.1 else none

/-- An allowed event about `h` extends its history, and another leaves it. -/
theorem history_observe {slots : Slots} {e : RegistryEvent} (he : slots.allows e) (h : Bytes32) :
    history (slots.observe e h).status
      = history (slots h).status ++ (saysOf h e).toList := by
  cases e with
  | CommitmentRegistered x owner tokenIn tokenOut size expiry kind =>
      have hnone : (slots x).status = .NONE := he x rfl
      by_cases hx : x = h
      · subst hx
        simp [Slots.observe, saysOf, lifecycle, history, hnone]
      · simp [Slots.observe, saysOf, lifecycle, hx, Ne.symm hx]
  | CommitmentExecuted x owner executor nullifier fillRef amountOut kind =>
      have hpend : (slots x).status = .PENDING := (he x rfl).1
      by_cases hx : x = h
      · subst hx
        simp [Slots.observe, Slots.setStatus, saysOf, lifecycle, history, hpend]
      · simp [Slots.observe, Slots.setStatus, saysOf, lifecycle, hx, Ne.symm hx]
  | CommitmentCancelled x owner | CommitmentExpired x owner =>
      have hpend : (slots x).status = .PENDING := (he x rfl).1
      by_cases hx : x = h
      · subst hx
        simp [Slots.observe, Slots.setStatus, saysOf, lifecycle, history, hpend]
      · simp [Slots.observe, Slots.setStatus, saysOf, lifecycle, hx, Ne.symm hx]
  | _ => simp [Slots.observe, saysOf, lifecycle]

/-- A commitment's part of a legal log is the history of its status. -/
theorem history_replay {slots : Slots} {events : List RegistryEvent} (hl : slots.Legal events)
    (h : Bytes32) :
    history (slots.replay events h).status
      = history (slots h).status ++ events.filterMap (saysOf h) := by
  induction events generalizing slots with
  | nil => exact (List.append_nil _).symm
  | cons e events ih =>
      have hrest := ih hl.2
      rw [history_observe hl.1, List.append_assoc] at hrest
      rw [Slots.replay, List.foldl_cons, List.filterMap_cons]
      cases htold : saysOf h e with
      | none =>
          rw [htold] at hrest
          exact hrest
      | some st =>
          rw [htold] at hrest
          exact hrest

/-- Registrations, once or more. -/
theorem foldl_registered {delivered : List ExecutionStatus} (hne : delivered ≠ [])
    (hall : ∀ x ∈ delivered, x = .registered) :
    delivered.foldl statusStep none = some .registered := by
  cases delivered with
  | nil => exact absurd rfl hne
  | cons x xs =>
      have hx : x = .registered := hall x List.mem_cons_self
      have hxs : ∀ y ∈ xs, y = .registered := fun y hy => hall y (List.mem_cons_of_mem x hy)
      have hstep : statusStep none x = some .registered := by
        rw [hx]
        rfl
      rw [List.foldl_cons, hstep,
        foldl_some (t := .executed) (fun y hy => Or.inl (hxs y hy)) (by decide)]
      rw [if_neg]
      intro hexec
      nomatch hxs _ hexec

/-- A registration and one ending, in that order, with repeats. -/
theorem foldl_ended {t : ExecutionStatus} {delivered : List ExecutionStatus}
    (ht : t ≠ .registered) (hsub : [.registered, t].Sublist delivered)
    (hmem : ∀ x ∈ delivered, x ∈ [.registered, t]) :
    delivered.foldl statusStep none = some t := by
  have hevents : ∀ x ∈ delivered, x = .registered ∨ x = t := by
    intro x hx
    simpa using hmem x hx
  exact (foldl_none hevents ht).2 (Or.inr hsub)

/-- The automaton takes a history, with repeats, to the status it is the
history of. -/
theorem foldl_history {st : CommitmentStatus} {delivered : List ExecutionStatus}
    (hsub : (history st).Sublist delivered) (hmem : ∀ x ∈ delivered, x ∈ history st) :
    delivered.foldl statusStep none = shown st := by
  cases st with
  | NONE =>
      have hnil : delivered = [] := List.eq_nil_iff_forall_not_mem.2 fun x hx => nomatch hmem x hx
      rw [hnil]
      rfl
  | PENDING =>
      refine foldl_registered ?_ fun x hx => List.mem_singleton.1 (hmem x hx)
      exact List.ne_nil_of_mem (hsub.subset List.mem_cons_self)
  | EXECUTED => exact foldl_ended (by decide) hsub hmem
  | CANCELLED => exact foldl_ended (by decide) hsub hmem
  | EXPIRED => exact foldl_ended (by decide) hsub hmem

-- ================================================================= the deliveries

/-- A log as the indexer gets it, and what else it asks at that time. -/
structure LogDelivery where
  event : RegistryEvent
  txHash : String
  blockNumber : UInt64
  node : NodeAnswers
  now : ℤ

/-- The indexer handles its deliveries in order, the database working. -/
def ChainIndexer.receive (keccak : String → Bytes32) (ci : ChainIndexer) :
    List LogDelivery → Go Service Unit
  | [] => pure ()
  | d :: ds => do
      ci.handleLog keccak d.node (faultless d.now)
        (encodeLog keccak d.event d.txHash d.blockNumber)
      ci.receive keccak ds

/-- One delivery: the row of the event's commitment takes a step. -/
theorem handleLog_statusOf (hk : DistinctTopics keccak) (d : LogDelivery)
    (hd : ¬ isStalenessSet d.event) (s : Service) :
    ∃ s', ci.handleLog keccak d.node (faultless d.now)
        (encodeLog keccak d.event d.txHash d.blockNumber) s = .ok () s'
      ∧ ∀ h, s'.statusOf (hexHash h)
        = (saysOf h d.event).toList.foldl statusStep (s.statusOf (hexHash h)) := by
  unfold ChainIndexer.handleLog
  cases hlife : lifecycle d.event with
  | none =>
      have hcall := handlerCall_other ci d.node d.now (t := s) hk d.txHash d.blockNumber hlife hd
      refine ⟨s, bind_ok.2 ⟨none, s, hcall, rfl⟩, fun h => ?_⟩
      rw [saysOf, hlife]
      rfl
  | some x =>
      obtain ⟨st, c⟩ := x
      obtain ⟨call, hst, hhash, hcall⟩ :=
        handlerCall_lifecycle (σ := Service) ci d.node d.now hk d.txHash d.blockNumber hlife
      obtain ⟨u, t, hrun⟩ : Returns (call.run ci.svc (faultless d.now)) s :=
        run_returns call d.now
      have hattempt : (call.run ci.svc (faultless d.now)).attempt s = .ok (.ok u) t := by
        unfold Go.attempt
        rw [hrun]
      refine ⟨t, bind_ok.2 ⟨some call, s, hcall s, bind_ok.2 ⟨_, t, hattempt, rfl⟩⟩, fun h => ?_⟩
      rw [statusOf_run hrun, hhash, hst, saysOf, hlife]
      by_cases hc : c = h
      · subst hc
        simp
      · simp [hc, hexHash_injective.eq_iff]

/-- All deliveries: the row of `h` takes the steps of what they say of `h`. -/
theorem receive_statusOf (hk : DistinctTopics keccak) {ds : List LogDelivery}
    (hds : ∀ d ∈ ds, ¬ isStalenessSet d.event) (s : Service) :
    ∃ s', ci.receive keccak ds s = .ok () s'
      ∧ ∀ h, s'.statusOf (hexHash h)
        = ((ds.map LogDelivery.event).filterMap (saysOf h)).foldl statusStep
            (s.statusOf (hexHash h)) := by
  induction ds generalizing s with
  | nil => exact ⟨s, rfl, fun _ => rfl⟩
  | cons d ds ih =>
      have hd : ¬ isStalenessSet d.event := hds d List.mem_cons_self
      obtain ⟨t, hfirst, hstep⟩ := @handleLog_statusOf keccak ci hk d hd s
      obtain ⟨s', hrest, hsteps⟩ := ih (fun e he => hds e (List.mem_cons_of_mem d he)) t
      refine ⟨s', bind_ok.2 ⟨(), t, hfirst, hrest⟩, fun h => ?_⟩
      rw [hsteps, hstep, List.map_cons, List.filterMap_cons]
      cases saysOf h d.event <;> rfl

/-- An indexer that is delivered the whole log of a deployment, in order
and possibly in parts more than once, ends with each commitment's row
showing its status on the chain. -/
theorem records_mirror_chain {net : Net} {w w' : World} {P : World → ChainMove → Prop}
    (hd : Deployed w) (hrun : (chain net).Run P ⟨w, []⟩ ⟨w', []⟩) (keccak : String → Bytes32)
    (hk : DistinctTopics keccak) (ci : ChainIndexer) (ds : List LogDelivery)
    (hall : w'.registryLog.Sublist (ds.map LogDelivery.event))
    (honly : ∀ d ∈ ds, d.event ∈ w'.registryLog)
    (hsurvives : ∀ e ∈ w'.registryLog, ¬ isStalenessSet e) (s : Service)
    (hfresh : ∀ h, s.statusOf (hexHash h) = none) :
    ∃ s', ci.receive keccak ds s = .ok () s'
      ∧ ∀ h, s'.statusOf (hexHash h) = shown (w'.registry.commitments h).status := by
  obtain ⟨htold, hfree⟩ := told_run hd hrun
  have hquiet : ∀ d ∈ ds, ¬ isStalenessSet d.event :=
    fun d hd => hsurvives d.event (honly d hd)
  obtain ⟨s', hreceive, hstatus⟩ := @receive_statusOf keccak ci hk ds hquiet s
  refine ⟨s', hreceive, fun h => ?_⟩
  have hhistory : history (w'.registry.commitments h).status
      = w'.registryLog.filterMap (saysOf h) := by
    have hreplay := history_replay htold.legal h
    rw [htold.slots hfree] at hreplay
    exact hreplay
  rw [hstatus, hfresh]
  refine foldl_history ?_ fun x hx => ?_
  · rw [hhistory]
    exact hall.filterMap _
  · obtain ⟨e, he, htold⟩ := List.mem_filterMap.1 hx
    obtain ⟨d, hdmem, rfl⟩ := List.mem_map.1 he
    rw [hhistory]
    exact List.mem_filterMap.2 ⟨d.event, honly d hdmem, htold⟩

-- ================================================================== an example

/-- User 8 registers and cancels; the registration is delivered twice. -/
def sampleDeliveries : List LogDelivery :=
  [⟨.VerifierSet 0 20, "0x01", 1, silentNode, 5⟩,
    ⟨.VerifierSet 1 21, "0x02", 1, silentNode, 5⟩,
    ⟨.CommitmentRegistered 99 8 10 11 60 2000 .ORDER_FILL, "0x03", 2, silentNode, 5⟩,
    ⟨.CommitmentRegistered 99 8 10 11 60 2000 .ORDER_FILL, "0x03", 2, silentNode, 6⟩,
    ⟨.CommitmentCancelled 99 8, "0x04", 3, silentNode, 7⟩]

theorem records_mirror_chain_sample :
    ∃ s', productionChainIndexer.receive registryTopic sampleDeliveries freshService = .ok () s'
      ∧ s'.statusOf (hexHash 99) = some .cancelled := by
  have hrun : (chain sampleNet).Run anyMove ⟨sampleWorld, []⟩
      ⟨(chain sampleNet).endState (sampleSetup
        ++ [call 8 (.registerCommitment 99 10 11 60 1 2000 .ORDER_FILL),
          call 8 (.cancelCommitment 99 5)]) sampleWorld, []⟩ :=
    .of_endState (fun _ _ _ => trivial) rfl
  have hlog : ((chain sampleNet).endState (sampleSetup
      ++ [call 8 (.registerCommitment 99 10 11 60 1 2000 .ORDER_FILL),
        call 8 (.cancelCommitment 99 5)]) sampleWorld).registryLog
      = [.VerifierSet 0 20, .VerifierSet 1 21,
        .CommitmentRegistered 99 8 10 11 60 2000 .ORDER_FILL, .CommitmentCancelled 99 8] := rfl
  obtain ⟨s', hreceive, hstatus⟩ := records_mirror_chain sampleWorld_deployed hrun registryTopic
    registryTopic_distinct productionChainIndexer sampleDeliveries (by rw [hlog]; decide)
    (by rw [hlog]; decide) (by rw [hlog]; simp [isStalenessSet]) freshService fun _ => rfl
  exact ⟨s', hreceive, hstatus 99⟩

end Zstrategy.Backend
