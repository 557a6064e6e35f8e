/-
`internal/service/stats.go`: the statistics of a chain, cached in Redis for
`statsCacheTTL`. A cached value that cannot be had or parsed is one that is
not there, and a failed write of the cache is ignored. Nothing clears the
cache when the records change, so an answer is old by up to the time the
cache keeps it, and what passed between the query and the write besides.

That a value is old has nothing to do with statistics; it is the lemma on
caches of Lib/CacheAside at the service's key. What this file adds is that a
question has one answer: the loop gives the same statistics in whatever
order the database returns the groups, floats being rationals.
-/
import Zstrategy.Backend.MonitorService
import Zstrategy.Backend.Statistics
import Zstrategy.Lib.CacheAside

namespace Zstrategy.Backend

open Lib

-- ========================================================= the order of the rows

/-- Statistics are their counts, the kinds that are there, and the rates. -/
theorem Statistics.eq_of_counts {stats stats' : Statistics}
    (hchain : stats.chainID = stats'.chainID)
    (htotals : ∀ s, stats.total s = stats'.total s)
    (hentries : ∀ k s, (stats.entry k).total s = (stats'.entry k).total s)
    (hthere : ∀ k, (stats.byKind k).isSome = (stats'.byKind k).isSome)
    (hrate : stats.successRate = stats'.successRate)
    (hlatency : stats.avgLatencyMs = stats'.avgLatencyMs)
    (hgas : stats.avgGasUsed = stats'.avgGasUsed) : stats = stats' := by
  have hkinds : stats.byKind = stats'.byKind := by
    funext k
    have hentry := hentries k
    have hk := hthere k
    unfold Statistics.entry at hentry
    generalize stats.byKind k = kb at hentry hk
    generalize stats'.byKind k = kb' at hentry hk
    cases kb with
    | none =>
        cases kb' with
        | none => rfl
        | some b' => cases hk
    | some b =>
        cases kb' with
        | none => cases hk
        | some b' =>
            obtain ⟨registered, executed, cancelled, expired⟩ := b
            obtain ⟨registered', executed', cancelled', expired'⟩ := b'
            have h₁ : registered = registered' := hentry .registered
            have h₂ : executed = executed' := hentry .executed
            have h₃ : cancelled = cancelled' := hentry .cancelled
            have h₄ : expired = expired' := hentry .expired
            rw [h₁, h₂, h₃, h₄]
  obtain ⟨chainID, registered, executed, cancelled, expired, rate, latency, gas, byKind⟩ := stats
  have h₁ : registered = stats'.totalRegistered := htotals .registered
  have h₂ : executed = stats'.totalExecutions := htotals .executed
  have h₃ : cancelled = stats'.totalCancelled := htotals .cancelled
  have h₄ : expired = stats'.totalExpired := htotals .expired
  rw [h₁, h₂, h₃, h₄]
  cases hchain
  cases hrate
  cases hlatency
  cases hgas
  cases hkinds
  rfl

namespace Tally

variable {acc : Tally} {row : StatisticsRow}

theorem add_there (k : StrategyKind) :
    ((acc.add row).stats.byKind k).isSome
      = ((acc.stats.byKind k).isSome || decide (k = row.kind)) := by
  obtain ⟨status, kind, count, avgMs, avgGas⟩ := row
  by_cases hk : k = kind
  · subst hk
    cases status <;> simp [add]
  · cases status <;> simp [add, hk]

theorem add_latency : (acc.add row).latency
    = if row.status = .executed then acc.latency.add row.avgMs row.count else acc.latency := by
  obtain ⟨status, kind, count, avgMs, avgGas⟩ := row
  cases status <;> rfl

theorem add_gas : (acc.add row).gas
    = if row.status = .executed then acc.gas.add row.avgGas row.count else acc.gas := by
  obtain ⟨status, kind, count, avgMs, avgGas⟩ := row
  cases status <;> rfl

/-- What the loop leaves alone. -/
theorem add_rest (acc : Tally) (row : StatisticsRow) :
    (acc.add row).stats.chainID = acc.stats.chainID
      ∧ (acc.add row).stats.successRate = acc.stats.successRate
      ∧ (acc.add row).stats.avgLatencyMs = acc.stats.avgLatencyMs
      ∧ (acc.add row).stats.avgGasUsed = acc.stats.avgGasUsed := by
  obtain ⟨status, kind, count, avgMs, avgGas⟩ := row
  cases status <;> exact ⟨rfl, rfl, rfl, rfl⟩

theorem weighted_swap (w : Weighted) (avg avg' : ℚ) (count count' : ℕ) :
    (w.add avg count).add avg' count' = (w.add avg' count').add avg count := by
  obtain ⟨hsum, hn⟩ := weighted_add (w.add avg count) avg' count'
  obtain ⟨hsum', hn'⟩ := weighted_add (w.add avg' count') avg count
  rw [(weighted_add w avg count).1] at hsum
  rw [(weighted_add w avg count).2] at hn
  rw [(weighted_add w avg' count').1] at hsum'
  rw [(weighted_add w avg' count').2] at hn'
  have hsums := hsum.trans ((add_right_comm _ _ _).trans hsum'.symm)
  have hns := hn.trans ((add_right_comm _ _ _).trans hn'.symm)
  generalize (w.add avg count).add avg' count' = left at hsums hns ⊢
  generalize (w.add avg' count').add avg count = right at hsums hns ⊢
  obtain ⟨sum, n⟩ := left
  cases hsums
  cases hns
  rfl

/-- Two rows may come in either order. -/
theorem add_swap (acc : Tally) (row row' : StatisticsRow) :
    (acc.add row).add row' = (acc.add row').add row := by
  have hstats : ((acc.add row).add row').stats = ((acc.add row').add row).stats := by
    obtain ⟨hchain, hrate, hms, hspent⟩ := add_rest (acc.add row) row'
    obtain ⟨hchain', hrate', hms', hspent'⟩ := add_rest (acc.add row') row
    obtain ⟨hc, hr, hm, hs⟩ := add_rest acc row
    obtain ⟨hc', hr', hm', hs'⟩ := add_rest acc row'
    apply Statistics.eq_of_counts
    · rw [hchain, hc, hchain', hc']
    · intro s
      rw [add_total, add_total, add_total, add_total]
      exact Nat.add_right_comm _ _ _
    · intro k s
      rw [add_entry, add_entry, add_entry, add_entry]
      exact Nat.add_right_comm _ _ _
    · intro k
      rw [add_there, add_there, add_there, add_there]
      exact Bool.or_right_comm _ _ _
    · rw [hrate, hr, hrate', hr']
    · rw [hms, hm, hms', hm']
    · rw [hspent, hs, hspent', hs']
  have hlatency : ((acc.add row).add row').latency = ((acc.add row').add row).latency := by
    rw [add_latency, add_latency, add_latency, add_latency]
    split <;> split
    · exact weighted_swap _ _ _ _ _
    all_goals rfl
  have hgas : ((acc.add row).add row').gas = ((acc.add row').add row).gas := by
    rw [add_gas, add_gas, add_gas, add_gas]
    split <;> split
    · exact weighted_swap _ _ _ _ _
    all_goals rfl
  generalize (acc.add row).add row' = left at hstats hlatency hgas ⊢
  obtain ⟨stats, latency, gas⟩ := left
  cases hstats
  cases hlatency
  cases hgas
  rfl

instance : RightCommutative add := ⟨add_swap⟩

end Tally

variable {chainID : ℤ} {t : ExecutionTable} {rows : List StatisticsRow}

/-- `GetStatistics` of the repository, when the database answers. -/
def statsOf (t : ExecutionTable) (chainID : ℤ) : Statistics :=
  ((statisticsQuery chainID t).foldl Tally.add (Tally.start chainID)).finish

/-- In whatever order the groups come back. -/
theorem getStatistics_eq (hrows : rows.Perm (statisticsQuery chainID t)) :
    ExecutionRepo.getStatistics none chainID rows = .ok (statsOf t chainID) := by
  have hloop : rows.foldl Tally.add (Tally.start chainID)
      = (statisticsQuery chainID t).foldl Tally.add (Tally.start chainID) :=
    hrows.foldl_eq _
  show Except.ok (rows.foldl Tally.add (Tally.start chainID)).finish = _
  rw [hloop]
  rfl

theorem statsOf_chainID : (statsOf t chainID).chainID = chainID := by
  suffices h : ∀ (rows : List StatisticsRow) (acc : Tally),
      (rows.foldl Tally.add acc).stats.chainID = acc.stats.chainID from h _ _
  intro rows
  induction rows with
  | nil => exact fun _ => rfl
  | cons row rows ih =>
      intro acc
      rw [List.foldl_cons, ih]
      exact (Tally.add_rest acc row).1

-- ==================================================================== the cache

def statsCacheTTL : ℕ := 30 * second

/-- `fmt.Sprintf("stats:chain:%d", chainID)`. -/
def statsKey (chainID : ℤ) : String := "stats:chain:" ++ toString chainID

theorem repr_injective : Function.Injective Nat.repr := by
  intro n n' h
  have hdigits : Nat.toDigits 10 n = Nat.toDigits 10 n' := by
    rw [← Nat.toList_repr, h, Nat.toList_repr]
  rw [← Nat.ofDigitChars_ten_toDigits (n := n), hdigits, Nat.ofDigitChars_ten_toDigits]

/-- A number has no sign before its digits. -/
theorem repr_ne_minus (n n' : ℕ) : n.repr ≠ "-" ++ n'.repr := by
  intro h
  have hsign : '-' ∈ Nat.toDigits 10 n := by
    rw [← Nat.toList_repr, h, String.toList_append]
    exact List.mem_append_left _ List.mem_cons_self
  exact absurd (Nat.isDigit_of_mem_toDigits (by decide) (by decide) hsign) (by decide)

theorem statsKey_injective : Function.Injective statsKey := by
  intro a b h
  have hrepr : a.repr = b.repr := by
    apply String.ext
    have hlist := congrArg String.toList h
    unfold statsKey at hlist
    rw [String.toList_append, String.toList_append] at hlist
    exact List.append_cancel_left hlist
  rw [Int.repr_eq_if, Int.repr_eq_if] at hrepr
  split at hrepr <;> split at hrepr
  · have hnat := repr_injective hrepr
    omega
  · exact absurd hrepr (repr_ne_minus _ _)
  · exact absurd hrepr.symm (repr_ne_minus _ _)
  · have hlist := congrArg String.toList hrepr
    rw [String.toList_append, String.toList_append] at hlist
    have hnat := repr_injective (String.ext (List.append_cancel_left hlist))
    omega

/-- `GetStatistics` of the service: the cache, then the repository, whose
answer fills the cache. -/
def statsService : CacheAside ExecutionTable ℤ String Statistics where
  read := statsOf
  key := statsKey
  ttl := statsCacheTTL

open CacheAside

/-- Whatever requests, lost entries and failed calls come in between: the
statistics that are served are those of one moment, of the chain that was
asked for, no older than the time to live and the slowest fill. The means
are exact: a sum of doubles would depend on the order of the groups in its
last bits. -/
theorem statistics_are_recent {source : ExecutionTable} {now time : ℤ} {delay : ℕ}
    {st : State ExecutionTable ℤ String Statistics} {stats : Statistics}
    (hrun : statsService.machine.Run (Prompt delay) (.start source now) st)
    (hanswer : .answered chainID stats time ∈ st.requests) :
    ∃ past : State ExecutionTable ℤ String Statistics,
      statsService.machine.Run (Prompt delay) (.start source now) past
      ∧ statsService.machine.Run (Prompt delay) past st
      ∧ time - (statsCacheTTL + delay) ≤ past.now ∧ past.now ≤ time
      ∧ (∀ rows, rows.Perm (statisticsQuery chainID past.source) →
        ExecutionRepo.getStatistics none chainID rows = .ok stats)
      ∧ stats.chainID = chainID
      ∧ ∀ s, stats.total s = (byStatus s (ofChain chainID past.source)).length := by
  obtain ⟨past, hbefore, hafter, hread, hlow, hhigh⟩ :=
    answered_as_of statsKey_injective hrun hanswer
  have hstats : ∀ rows, rows.Perm (statisticsQuery chainID past.source) →
      ExecutionRepo.getStatistics none chainID rows = .ok stats := by
    intro rows hrows
    rw [getStatistics_eq hrows]
    exact congrArg Except.ok hread
  refine ⟨past, hbefore, hafter, hlow, hhigh, hstats, ?_, ?_⟩
  · rw [← hread]
    exact statsOf_chainID
  · intro s
    obtain ⟨stats', hstats', htotals, -⟩ :=
      statistics_of_query (List.Perm.refl (statisticsQuery chainID past.source))
    rw [hstats _ (List.Perm.refl _)] at hstats'
    cases hstats'
    exact htotals s

/-- Ten seconds passed between the query and the write of the cache. The
table is empty since, and a second request came after thirty-nine. -/
def slowFill : State ExecutionTable ℤ String Statistics where
  now := 39 * second
  source := ⟨[], by decide⟩
  cache := Function.update (fun _ => none) (statsKey 31337)
    (some (statsOf twoExecutions 31337, 40 * second))
  requests := [.answered 31337 (statsOf twoExecutions 31337) 0, .asked 31337]

/-- It is answered what is no longer so. -/
theorem statistics_are_recent_sample :
    ∃ st : State ExecutionTable ℤ String Statistics,
      st.source.rows = []
      ∧ .answered 31337 (statsOf twoExecutions 31337) (39 * second) ∈ st.requests
      ∧ ∃ past : State ExecutionTable ℤ String Statistics,
        (39 * second - (statsCacheTTL + 10 * second) : ℤ) ≤ past.now
        ∧ ExecutionRepo.getStatistics none 31337 (statisticsQuery 31337 past.source)
          = .ok (statsOf twoExecutions 31337) := by
  have hidle : ∀ {st : State ExecutionTable ℤ String Statistics} {i : ℕ} {r},
      st.requests[i]? = some r → (∀ k v read, r ≠ .loaded k v read) →
      Prompt (10 * second) st (.run i false : Step ExecutionTable ℤ String) := by
    intro st i r hr hnot k v read h
    rw [hr] at h
    cases h
    exact absurd rfl (hnot k v read)
  have hread : statsService.machine.Run (Prompt (10 * second)) (.start twoExecutions 0)
      ⟨0, twoExecutions, fun _ => none, [.loaded 31337 (statsOf twoExecutions 31337) 0]⟩ :=
    (((Machine.Run.refl _).tail (.ask 31337) trivial rfl).tail (.run 0 false)
      (hidle rfl (by simp)) rfl).tail (.run 0 false) (hidle rfl (by simp)) rfl
  have hfilled : statsService.machine.Run (Prompt (10 * second)) (.start twoExecutions 0)
      slowFill := by
    refine .tail (.ask 31337) (.tail (.wait (29 * second)) (.tail (.change ⟨[], by decide⟩)
      (.tail (.run 0 false) (.tail (.wait (10 * second)) hread trivial rfl) ?_ rfl)
      trivial rfl) trivial rfl) trivial rfl
    intro k v read h
    cases h
    decide
  have hcached : slowFill.cache (statsKey 31337)
      = some (statsOf twoExecutions 31337, (40 * second : ℤ)) :=
    Function.update_self (statsKey 31337) _ fun _ => none
  have hlook : statsService.look slowFill 31337 = some (statsOf twoExecutions 31337) :=
    look_of_cached hcached (by decide)
  have hrun : statsService.machine.Run (Prompt (10 * second)) (.start twoExecutions 0)
      (slowFill.put 1 (.answered 31337 (statsOf twoExecutions 31337) (39 * second))) :=
    hfilled.tail (.run 1 false) (hidle rfl (by simp)) (step_hit (i := 1) rfl hlook)
  have hanswer : .answered 31337 (statsOf twoExecutions 31337) (39 * second)
      ∈ (slowFill.put 1 (.answered 31337 (statsOf twoExecutions 31337) (39 * second))).requests :=
    List.mem_cons_of_mem _ List.mem_cons_self
  obtain ⟨past, -, -, hlow, -, hstats, -⟩ := statistics_are_recent hrun hanswer
  exact ⟨_, rfl, hanswer, past, hlow, hstats _ (List.Perm.refl _)⟩

end Zstrategy.Backend
