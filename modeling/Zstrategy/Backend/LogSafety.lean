/-
Which registry logs the indexer survives. The handlers never panic on the
hash texts `handleLog` gives them, so the only panic is the read of the
second topic: `OracleStalenessSet` has no indexed parameter, and its log
has one topic.

The twelve events are told apart by the hash of their signatures, which is a
parameter; `DistinctTopics` is what is asked of it, and the samples check it
of the real digests. Everything else about an event is its name, so the code
that compares first topics becomes a match on names (`namedCall`).
-/
import Mathlib.Data.String.Basic
import Zstrategy.Backend.ChainIndexer
import Zstrategy.Contracts.Chain

namespace Zstrategy.Backend

open Lib Go Contracts

variable {svc : IndexerService} {env : Env} {keccak : String → Bytes32} {ci : ChainIndexer}
  {node : NodeAnswers} {now : ℤ} {s : Service}

-- ============================================================== hash texts

/-- A character takes a byte at least. -/
theorem length_le_utf8ByteSize (cs : List Char) :
    cs.length ≤ (String.ofList cs).utf8ByteSize := by
  induction cs with
  | nil => exact Nat.zero_le _
  | cons c cs ih =>
      have hfirst := Char.utf8Size_pos c
      rw [String.utf8ByteSize_ofList] at ih ⊢
      rw [List.length_cons, String.utf8Len_cons]
      omega

/-- A hash text is long enough to be cut to ten bytes. -/
theorem hexHash_size (topic : Bytes32) : 10 ≤ (hexHash topic).utf8ByteSize := by
  have hdigits := length_le_utf8ByteSize (lastDigits 16 64 topic.val)
  rw [length_lastDigits] at hdigits
  rw [hexHash, String.utf8ByteSize_append]
  omega

-- ======================================================= handlers never panic

section Calm

variable {c : String} (hsize : 10 ≤ c.utf8ByteSize)
include hsize

theorem monitor_updateStatus_calm (fault : Fault) (status : StrategyStatus) :
    Calm (MonitorService.updateStatus fault now c status) := by
  have hstop : Calm (if status = .DONE then
      modify (Service.onMonitors (Monitors.stopMonitoring c)) else pure ()) := by
    by_cases hdone : status = .DONE
    · rw [if_pos hdone]
      exact Calm.modify _
    · rw [if_neg hdone]
      exact Calm.pure ()
  unfold MonitorService.updateStatus
  refine Calm.bind Calm.read fun t => ?_
  cases StrategyRepo.updateStatus fault now c status t.strategies with
  | ok t' => exact Calm.bind (Calm.modify _) fun _ => hstop
  | error e => exact Calm.bind (Calm.unlessPanic hsize _) fun _ => hstop

theorem finishStrategy_calm : Calm (svc.finishStrategy env c) := by
  have hprune : Calm (svc.pruneKeeperShares c) := by
    unfold IndexerService.pruneKeeperShares
    by_cases hurl : svc.keeperURL = ""
    · rw [if_pos hurl]
      exact Calm.pure ()
    · rw [if_neg hurl]
      exact Calm.modify _
  unfold IndexerService.finishStrategy
  by_cases hmon : svc.hasMonitor = true
  · rw [if_pos hmon]
    refine Calm.bind (Calm.modify _) fun _ => ?_
    exact Calm.bind (monitor_updateStatus_calm hsize _ _) fun _ => hprune
  · rw [if_neg hmon]
    exact hprune

omit hsize in
theorem lookupKindLabel_calm : Calm (svc.lookupKindLabel env c) := by
  unfold IndexerService.lookupKindLabel
  refine Calm.bind Calm.read fun t => ?_
  split
  · exact Calm.pure _
  · split
    · split <;> exact Calm.pure _
    · exact Calm.pure _

omit hsize in
theorem recordKind_calm (kind : String) : Calm (svc.recordKind env c kind) := by
  unfold IndexerService.recordKind
  refine Calm.bind Calm.read fun t => ?_
  split
  · refine Calm.bind (Calm.check _) fun pending => ?_
    split <;> exact Calm.pure _
  · exact Calm.pure _

omit hsize in
theorem saveRecord_calm (fault : Fault) (record : ExecutionRecord) :
    Calm (IndexerService.saveRecord fault record) := by
  unfold IndexerService.saveRecord
  exact Calm.bind Calm.read fun _ => Calm.bind (Calm.check _) fun _ => Calm.modify _

omit hsize in
theorem updateRecord_calm (fault : Fault) (status : ExecutionStatus) (tx : String)
    (b g : UInt64) (t : Option ℤ) :
    Calm (IndexerService.updateRecord fault c status tx b g t) := by
  unfold IndexerService.updateRecord
  exact Calm.bind Calm.read fun _ => Calm.bind (Calm.check _) fun _ => Calm.modify _

end Calm

/-- No handler panics on a text of at least ten bytes. -/
theorem run_calm {c : HandlerCall} (hsize : 10 ≤ c.commitmentHash.utf8ByteSize) :
    Calm (c.run svc env) := by
  cases c with
  | registered h kind chainID t =>
      refine Calm.bind Calm.read fun _ => Calm.bind (Calm.check _) fun found => ?_
      split
      · exact Calm.pure _
      · exact Calm.bind (recordKind_calm kind) fun _ => saveRecord_calm _ _
  | executed h tx chainID b g t =>
      refine Calm.bind lookupKindLabel_calm fun kind => ?_
      refine Calm.bind (finishStrategy_calm hsize) fun _ => ?_
      refine Calm.bind (updateRecord_calm _ _ _ _ _ _) fun _ => ?_
      refine Calm.bind Calm.read fun _ => Calm.bind (Calm.check _) fun found => ?_
      cases found with
      | some record => exact Calm.modify _
      | none => exact Calm.bind (saveRecord_calm _ _) fun _ => Calm.modify _
  | cancelled h tx b =>
      refine Calm.bind lookupKindLabel_calm fun kind => ?_
      exact Calm.bind (finishStrategy_calm hsize) fun _ => updateRecord_calm _ _ _ _ _ _
  | expired h b =>
      refine Calm.bind lookupKindLabel_calm fun kind => ?_
      exact Calm.bind (finishStrategy_calm hsize) fun _ => updateRecord_calm _ _ _ _ _ _

-- ===================================================================== topics

/-- One event of each declaration. -/
def representatives : List RegistryEvent :=
  [.CommitmentRegistered 0 0 0 0 0 0 .ORDER_FILL, .VerifierSet 0 0,
    .CommitmentExecuted 0 0 0 0 0 0 .ORDER_FILL, .CommitmentCancelled 0 0,
    .CommitmentExpired 0 0, .DEXAdapterChanged 0 0, .CollateralVaultChanged 0 0,
    .GasVaultChanged 0 0, .PriceFeedSet 0 0, .OracleStalenessSet 0 0, .Paused 0,
    .Unpaused 0]

/-- The twelve declarations. -/
def declarations : List AbiEvent :=
  representatives.map fun e => (declaration e).1

/-- The hash tells the twelve signatures apart. -/
def DistinctTopics (keccak : String → Bytes32) : Prop :=
  ∀ a ∈ declarations, ∀ b ∈ declarations,
    keccak a.signature = keccak b.signature → a.signature = b.signature

theorem declaration_mem (e : RegistryEvent) : (declaration e).1 ∈ declarations := by
  cases e <;> simp [declarations, representatives, declaration]

theorem signature_eq_iff : ∀ a ∈ declarations, ∀ b ∈ declarations,
    (a.signature = b.signature ↔ a.name = b.name) := by
  decide

/-- A first topic names its event. -/
theorem topic_eq_iff (hk : DistinctTopics keccak) (e : RegistryEvent) {a : AbiEvent}
    (ha : a ∈ declarations) :
    keccak (declaration e).1.signature = keccak a.signature
      ↔ (declaration e).1.name = a.name := by
  rw [← signature_eq_iff _ (declaration_mem e) a ha]
  exact ⟨hk _ (declaration_mem e) a ha, congrArg keccak⟩

/-- The lifecycle events, with the status they stand for. -/
def lifecycle : RegistryEvent → Option (ExecutionStatus × Bytes32)
  | .CommitmentRegistered h .. => some (.registered, h)
  | .CommitmentExecuted h .. => some (.executed, h)
  | .CommitmentCancelled h _ => some (.cancelled, h)
  | .CommitmentExpired h _ => some (.expired, h)
  | _ => none

/-- The one event without an indexed parameter. -/
def isStalenessSet : RegistryEvent → Prop
  | .OracleStalenessSet .. => True
  | _ => False

-- ================================================================ handling

variable (ci node now)

variable {σ : Type} {t : σ}

theorem index_one (x y : Bytes32) (xs : List Bytes32) : index (x :: y :: xs) 1 t = .ok y t := rfl

/-- The call for a log, by the name of its event instead of its first
topic. -/
def namedCall (ci : ChainIndexer) (node : NodeAnswers) (now : ℤ) (vLog : Log) (name : String)
    (topic1 : Bytes32) : Option HandlerCall :=
  let blockTime := node.blockTime.getD now
  if name = abiCommitmentRegistered.name then
    some (.registered (hexHash topic1)
      (if unpackKind vLog.data = some 1 then "DCA" else "ORDER_FILL") ci.chainID blockTime)
  else if name = abiCommitmentExecuted.name then
    some (.executed (hexHash topic1) vLog.txHash ci.chainID vLog.blockNumber
      (node.gasUsed.getD 0) blockTime)
  else if name = abiCommitmentCancelled.name then
    some (.cancelled (hexHash topic1) vLog.txHash vLog.blockNumber)
  else if name = abiCommitmentExpired.name then some (.expired (hexHash topic1) vLog.blockNumber)
  else none

theorem abi_mem : abiCommitmentRegistered ∈ declarations ∧ abiCommitmentExecuted ∈ declarations
    ∧ abiCommitmentCancelled ∈ declarations ∧ abiCommitmentExpired ∈ declarations :=
  ⟨declaration_mem (.CommitmentRegistered 0 0 0 0 0 0 .ORDER_FILL),
    declaration_mem (.CommitmentExecuted 0 0 0 0 0 0 .ORDER_FILL),
    declaration_mem (.CommitmentCancelled 0 0), declaration_mem (.CommitmentExpired 0 0)⟩

/-- A log with an indexed argument is handled by its name. -/
theorem handlerCall_indexed (hk : DistinctTopics keccak) (e : RegistryEvent) (tx : String)
    (b : UInt64) {topic1 : Bytes32} {rest : List Bytes32}
    (hargs : argumentsAt true (declaration e) = topic1 :: rest) :
    ci.handlerCall keccak node now (encodeLog keccak e tx b) t
      = .ok (namedCall ci node now (encodeLog keccak e tx b) (declaration e).1.name topic1) t := by
  obtain ⟨hr, hx, hc, hp⟩ := abi_mem
  have htopics : (encodeLog keccak e tx b).topics
      = keccak (declaration e).1.signature :: topic1 :: rest := by
    rw [encodeLog, hargs]
  unfold ChainIndexer.handlerCall namedCall
  rw [htopics]
  show Go.bind (index _ 1) _ t = _
  rw [Go.bind, index_one]
  simp only [topic_eq_iff hk e hr, topic_eq_iff hk e hx, topic_eq_iff hk e hc,
    topic_eq_iff hk e hp]
  split_ifs <;> rfl

/-- A lifecycle log becomes the matching handler call. -/
theorem handlerCall_lifecycle (hk : DistinctTopics keccak) {e : RegistryEvent} (tx : String)
    (b : UInt64) {st : ExecutionStatus} {h : Bytes32} (he : lifecycle e = some (st, h)) :
    ∃ c : HandlerCall, c.status = st ∧ c.commitmentHash = hexHash h
      ∧ ∀ t : σ, ci.handlerCall keccak node now (encodeLog keccak e tx b) t = .ok (some c) t := by
  cases e with
  | CommitmentRegistered | CommitmentExecuted | CommitmentCancelled | CommitmentExpired =>
      cases he
      exact ⟨_, rfl, rfl, fun t => handlerCall_indexed ci node now hk _ tx b rfl⟩
  | _ => nomatch he

/-- A log of another event with an indexed parameter becomes no call. -/
theorem handlerCall_other (hk : DistinctTopics keccak) {e : RegistryEvent} (tx : String)
    (b : UInt64) (he : lifecycle e = none) (hs : ¬ isStalenessSet e) :
    ci.handlerCall keccak node now (encodeLog keccak e tx b) t = .ok none t := by
  cases e with
  | CommitmentRegistered | CommitmentExecuted | CommitmentCancelled | CommitmentExpired =>
      nomatch he
  | OracleStalenessSet => exact absurd trivial hs
  | _ => exact handlerCall_indexed ci node now hk _ tx b rfl

/-- The log without an indexed argument has no second topic. -/
theorem handlerCall_staleness {e : RegistryEvent} (tx : String) (b : UInt64)
    (he : isStalenessSet e) :
    ci.handlerCall keccak node now (encodeLog keccak e tx b) t
      = .panic "runtime error: index out of range" := by
  cases e with
  | OracleStalenessSet => rfl
  | _ => exact absurd he id

/-- So `handleLog` panics on it. -/
theorem handleLog_staleness {e : RegistryEvent} (tx : String) (b : UInt64)
    (he : isStalenessSet e) :
    ci.handleLog keccak node env (encodeLog keccak e tx b) s
      = .panic "runtime error: index out of range" := by
  show Go.bind (ci.handlerCall keccak node env.now _) _ s = _
  rw [Go.bind, handlerCall_staleness ci node env.now tx b he]

-- =================================================================== survival

variable {ci node}

/-- `handleLog` returns, and changes nothing unless the event is one of
the four. -/
def Survives (keccak : String → Bytes32) (ci : ChainIndexer) (node : NodeAnswers) (env : Env)
    (e : RegistryEvent) (tx : String) (b : UInt64) (s : Service) : Prop :=
  ∃ s', ci.handleLog keccak node env (encodeLog keccak e tx b) s = .ok () s'
    ∧ (lifecycle e = none → s' = s)

/-- A call that never panics leaves a state when its error is dropped. -/
theorem attempt_returns {c : Go Service Unit} (hc : Calm c) (s : Service) :
    ∃ s', (do let _ ← c.attempt; pure () : Go Service Unit) s = .ok () s' := by
  show ∃ s', Go.bind c.attempt _ s = _
  unfold Go.bind Go.attempt
  cases h : c s with
  | ok a t => exact ⟨t, rfl⟩
  | err e t => exact ⟨t, rfl⟩
  | panic text => exact absurd h (hc s text)

/-- The indexer survives a registry log exactly if it is not an
`OracleStalenessSet`. -/
theorem survives_iff (keccak : String → Bytes32) (hk : DistinctTopics keccak)
    (ci : ChainIndexer) (node : NodeAnswers) (env : Env) (e : RegistryEvent) (tx : String)
    (b : UInt64) (s : Service) :
    Survives keccak ci node env e tx b s ↔ ¬ isStalenessSet e := by
  unfold Survives
  by_cases hstale : isStalenessSet e
  · refine iff_of_false ?_ (not_not_intro hstale)
    intro h
    obtain ⟨s', hreturn, -⟩ := h
    rw [handleLog_staleness ci node tx b hstale] at hreturn
    nomatch hreturn
  · unfold ChainIndexer.handleLog
    refine iff_of_true ?_ hstale
    cases hlife : lifecycle e with
    | none =>
        have hcall : ci.handlerCall keccak node env.now (encodeLog keccak e tx b) s
            = .ok none s := handlerCall_other ci node env.now hk tx b hlife hstale
        exact ⟨s, bind_ok.2 ⟨none, s, hcall, rfl⟩, fun _ => rfl⟩
    | some event =>
        obtain ⟨c, -, hhash, hcall⟩ := handlerCall_lifecycle ci node env.now hk tx b hlife
        have hsize : 10 ≤ c.commitmentHash.utf8ByteSize := by
          rw [hhash]
          exact hexHash_size event.2
        have hcalm : Calm (c.run ci.svc env) := run_calm hsize
        obtain ⟨s', hs'⟩ := attempt_returns hcalm s
        exact ⟨s', bind_ok.2 ⟨some c, s, hcall s, hs'⟩, fun h => nomatch h⟩

-- ================================================================== examples

/-- The real hashes of the twelve signatures. -/
def registryTopics : List (String × Bytes32) :=
  [("CommitmentRegistered(bytes32,address,address,address,uint256,uint64,uint8)",
      0x531a1bead3df64d49b382f4f4bbfb296aab440097802c2a27f4864155a719032),
    ("VerifierSet(uint8,address)",
      0xc58e8cab34dffa84e0d7eb3a1dbc1bc3bf028ea22d6d0e36fd663fc2d97c9e06),
    ("CommitmentExecuted(bytes32,address,address,bytes32,uint64,uint256,uint8)",
      0x0e0de5df899046cdcf930f5c67b9f9e7c36eab7d166e5ae22f94cc53fd3af60f),
    ("CommitmentCancelled(bytes32,address)",
      0xaa04138f7abc264bbe9c856b9610410c76e59f82c90f3800fa6ffea6ab8ae94f),
    ("CommitmentExpired(bytes32,address)",
      0xd2b34a0ecc1e5d6c01d12267895b762170982389e53d13b78b3d5d961d0eadbb),
    ("DEXAdapterChanged(address,address)",
      0x4f6c7ec428ee4fd53e2899a7e222ee9cb7f202291c07b9c60b369ee177c871b1),
    ("CollateralVaultChanged(address,address)",
      0x17bf90a7dacb9e4205c1989ce5731e50b81e671b08a06770f9919a0ac01a2786),
    ("GasVaultChanged(address,address)",
      0xf8dff05d55b31ae28e2ca7c18d29c98de8c21696b9cc27d87974982e31898926),
    ("PriceFeedSet(address,address)",
      0xd2d8394cf7549a5ddbc2ba3dd7b2de8d53c891472d1f2907008ed6a10045fdae),
    ("OracleStalenessSet(uint256,uint256)",
      0x83161c2fe415c321cbfbd3951db0c417d971acc4986e0b765c89a6c08f683362),
    ("Paused(address)",
      0x62e78cea01bee320cd4e420270b5ea74000d11b0c9f74754ebdbfc544b05a258),
    ("Unpaused(address)",
      0x5db9ee0a495bf2e6ff9c91a7834c1ba4fdd244a5e8aa4e537bd38aeae4b073aa)]

def registryTopic (signature : String) : Bytes32 :=
  (registryTopics.lookup signature).getD 0

theorem registryTopic_distinct : DistinctTopics registryTopic := by
  unfold DistinctTopics
  decide +kernel

def productionChainIndexer : ChainIndexer := ⟨421614, productionIndexer⟩

/-- The node knows neither the block nor the receipt. -/
def silentNode : NodeAnswers := ⟨none, none⟩

theorem survives_iff_sample :
    Survives registryTopic productionChainIndexer silentNode calmEnv (.Paused 7) "0x01" 5
      freshService :=
  (survives_iff registryTopic registryTopic_distinct productionChainIndexer silentNode calmEnv
    (.Paused 7) "0x01" 5 freshService).2 id

/-- The guardian sets the staleness bound, and the indexer panics on the
log. -/
theorem staleness_log_panics :
    ∃ c, Reachable sampleNet c
      ∧ .registry (.OracleStalenessSet 3600 60) ∈ c.world.log
      ∧ ¬ Survives registryTopic productionChainIndexer silentNode calmEnv
        (.OracleStalenessSet 3600 60) "0x01" 5 freshService := by
  obtain ⟨c, hc⟩ : ∃ c, (chain sampleNet).play [call 7 (.setOracleStaleness 60)]
      ⟨sampleWorld, []⟩ = some c := ⟨_, rfl⟩
  refine ⟨c, ⟨sampleWorld, sampleWorld_deployed, .of_play (fun _ _ _ => trivial) hc⟩, ?_, ?_⟩
  · cases hc
    decide
  · intro h
    obtain ⟨s', hreturn, -⟩ := h
    rw [handleLog_staleness _ _ (e := .OracleStalenessSet 3600 60) "0x01" 5 trivial] at hreturn
    nomatch hreturn

end Zstrategy.Backend
