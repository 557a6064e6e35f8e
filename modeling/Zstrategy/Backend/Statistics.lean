/-
`GetStatistics` of `internal/repository/execution_repo.go`: one aggregate
query on `execution_records`, whose groups come back in any order, and the
loop that adds them up. Counts and averages are exact and floats are
rationals. The times of a row count microseconds, as its columns do.

The counts are what they should be. The two averages are means of groups
put together with the numbers of their rows as weights, so they are the
means over all executed rows only if the rows recombine: not where an
execution without a duration, or one without a gas figure, stands beside
ones that have it.
-/
import Mathlib.Algebra.Order.Ring.Rat
import Mathlib.Data.Fintype.Prod
import Mathlib.Data.List.Dedup
import Zstrategy.Backend.Repositories
import Zstrategy.Lib.GroupMean

namespace Zstrategy.Backend

open Lib
open Function (update)

instance : Fintype StrategyKind :=
  ⟨{.LIMIT, .DCA, .MARKET}, by intro k; cases k <;> decide⟩

instance : Fintype ExecutionStatus :=
  ⟨{.registered, .executed, .cancelled, .expired}, by intro k; cases k <;> decide⟩

instance : Nontrivial StrategyKind := ⟨.LIMIT, .DCA, by decide⟩

-- ================================================================== the query

/-- `EXTRACT(EPOCH FROM (executed_at - registered_at)) * 1000`, where
`executed_at` is set. -/
def ExecutionRecord.latencyMs (rec : ExecutionRecord) : Option ℚ :=
  rec.executedAt.map fun executedAt => (executedAt - rec.registeredAt : ℚ) / 1000

/-- `gas_used`, where it is positive. -/
def ExecutionRecord.gasSpent (rec : ExecutionRecord) : Option ℚ :=
  if 0 < rec.gasUsed then some rec.gasUsed.toNat else none

/-- What `GROUP BY` goes by. -/
def ExecutionRecord.group (rec : ExecutionRecord) : ExecutionStatus × StrategyKind :=
  (rec.status, rec.kind)

structure StatisticsRow where
  status : ExecutionStatus
  kind : StrategyKind
  count : ℕ
  avgMs : ℚ
  avgGas : ℚ
  deriving DecidableEq

/-- The aggregates of a group; `COALESCE` makes an average of nothing zero. -/
def aggregate (rows : List ExecutionRecord) (g : ExecutionStatus × StrategyKind) :
    StatisticsRow where
  status := g.1
  kind := g.2
  count := (rows.filter fun rec => rec.group = g).length
  avgMs := mean ((rows.filter fun rec => rec.group = g).filterMap ExecutionRecord.latencyMs)
  avgGas := mean ((rows.filter fun rec => rec.group = g).filterMap ExecutionRecord.gasSpent)

/-- `WHERE chain_id = ?`. -/
def ofChain (chainID : ℤ) (t : ExecutionTable) : List ExecutionRecord :=
  t.rows.filter fun rec => rec.chainID = chainID

/-- The groups of the query, in some order. -/
def statisticsQuery (chainID : ℤ) (t : ExecutionTable) : List StatisticsRow :=
  (((ofChain chainID t).map ExecutionRecord.group).dedup).map (aggregate (ofChain chainID t))

-- =================================================================== the loop

structure KindBreakdown where
  totalRegistered : ℕ
  totalExecuted : ℕ
  totalCancelled : ℕ
  totalExpired : ℕ
  deriving DecidableEq

structure Statistics where
  chainID : ℤ
  totalRegistered : ℕ
  totalExecutions : ℕ
  totalCancelled : ℕ
  totalExpired : ℕ
  successRate : ℚ
  avgLatencyMs : ℚ
  avgGasUsed : ℚ
  byKind : StrategyKind → Option KindBreakdown

/-- `weightedLatency` and `latencyN`, or `weightedGas` and `gasN`. -/
structure Weighted where
  sum : ℚ
  n : ℕ

/-- One more group, if its average is positive. -/
def Weighted.add (w : Weighted) (avg : ℚ) (count : ℕ) : Weighted :=
  if 0 < avg then ⟨w.sum + avg * count, w.n + count⟩ else w

def Weighted.mean (w : Weighted) : ℚ := if 0 < w.n then w.sum / w.n else 0

/-- What the loop has so far. -/
structure Tally where
  stats : Statistics
  latency : Weighted
  gas : Weighted

namespace Tally

def start (chainID : ℤ) : Tally :=
  ⟨⟨chainID, 0, 0, 0, 0, 0, 0, 0, fun _ => none⟩, ⟨0, 0⟩, ⟨0, 0⟩⟩

/-- `stats.ByKind[row.Kind]`, made if it is not there. -/
def breakdown (acc : Tally) (kind : StrategyKind) : KindBreakdown :=
  (acc.stats.byKind kind).getD ⟨0, 0, 0, 0⟩

/-- The body of the loop. -/
def add (acc : Tally) (row : StatisticsRow) : Tally :=
  let kb := acc.breakdown row.kind
  match row.status with
  | .registered =>
      { acc with stats := { acc.stats with
          totalRegistered := acc.stats.totalRegistered + row.count
          byKind := update acc.stats.byKind row.kind
            (some { kb with totalRegistered := kb.totalRegistered + row.count }) } }
  | .executed =>
      { stats := { acc.stats with
          totalExecutions := acc.stats.totalExecutions + row.count
          byKind := update acc.stats.byKind row.kind
            (some { kb with totalExecuted := kb.totalExecuted + row.count }) }
        latency := acc.latency.add row.avgMs row.count
        gas := acc.gas.add row.avgGas row.count }
  | .cancelled =>
      { acc with stats := { acc.stats with
          totalCancelled := acc.stats.totalCancelled + row.count
          byKind := update acc.stats.byKind row.kind
            (some { kb with totalCancelled := kb.totalCancelled + row.count }) } }
  | .expired =>
      { acc with stats := { acc.stats with
          totalExpired := acc.stats.totalExpired + row.count
          byKind := update acc.stats.byKind row.kind
            (some { kb with totalExpired := kb.totalExpired + row.count }) } }

/-- After the loop. -/
def finish (acc : Tally) : Statistics :=
  let settled := acc.stats.totalExecutions + acc.stats.totalCancelled + acc.stats.totalExpired
  { acc.stats with
    avgLatencyMs := acc.latency.mean
    avgGasUsed := acc.gas.mean
    successRate := if 0 < settled then acc.stats.totalExecutions / settled * 100 else 0 }

end Tally

/-- `GetStatistics`, on the rows that the database returns. -/
def ExecutionRepo.getStatistics (fault : Fault) (chainID : ℤ) (rows : List StatisticsRow) :
    Except String Statistics :=
  (query "get statistics: " fault rows).map fun rows =>
    (rows.foldl Tally.add (Tally.start chainID)).finish

-- ======================================================== what the loop adds up

def KindBreakdown.total (kb : KindBreakdown) : ExecutionStatus → ℕ
  | .registered => kb.totalRegistered
  | .executed => kb.totalExecuted
  | .cancelled => kb.totalCancelled
  | .expired => kb.totalExpired

def Statistics.total (stats : Statistics) : ExecutionStatus → ℕ
  | .registered => stats.totalRegistered
  | .executed => stats.totalExecutions
  | .cancelled => stats.totalCancelled
  | .expired => stats.totalExpired

/-- The entry of a kind; a kind that is not there counts nothing. -/
def Statistics.entry (stats : Statistics) (kind : StrategyKind) : KindBreakdown :=
  (stats.byKind kind).getD ⟨0, 0, 0, 0⟩

namespace Tally

variable {acc : Tally} {row : StatisticsRow}

theorem add_total (s : ExecutionStatus) :
    (acc.add row).stats.total s = acc.stats.total s + if row.status = s then row.count else 0 := by
  obtain ⟨status, kind, count, avgMs, avgGas⟩ := row
  cases status <;> cases s <;> rfl

theorem add_entry (k : StrategyKind) (s : ExecutionStatus) :
    ((acc.add row).stats.entry k).total s
      = (acc.stats.entry k).total s + if row.kind = k ∧ row.status = s then row.count else 0 := by
  obtain ⟨status, kind, count, avgMs, avgGas⟩ := row
  by_cases hk : kind = k
  · subst hk
    cases status <;> cases s <;>
      simp [add, Statistics.entry, breakdown, KindBreakdown.total]
  · cases status <;>
      simp [add, Statistics.entry, hk, Function.update_of_ne (Ne.symm hk)]

theorem weighted_add (w : Weighted) (avg : ℚ) (count : ℕ) :
    (w.add avg count).sum = w.sum + (if 0 < avg then avg * count else 0)
      ∧ (w.add avg count).n = w.n + if 0 < avg then count else 0 := by
  unfold Weighted.add
  by_cases h : 0 < avg
  · rw [if_pos h, if_pos h, if_pos h]
    exact ⟨rfl, rfl⟩
  · rw [if_neg h, if_neg h, if_neg h, add_zero, add_zero]
    exact ⟨rfl, rfl⟩

/-- Whatever each row adds to, the loop adds the sum to. -/
theorem foldl_add {M : Type} [AddMonoid M] {F : Tally → M} {c : StatisticsRow → M}
    (h : ∀ acc row, F (acc.add row) = F acc + c row) (rows : List StatisticsRow) (acc : Tally) :
    F (rows.foldl add acc) = F acc + (rows.map c).sum := by
  induction rows generalizing acc with
  | nil => simp
  | cons row rows ih => rw [List.foldl_cons, ih, h, List.map_cons, List.sum_cons, add_assoc]

end Tally

-- ========================================================== sums over the groups

/-- The rows of a status. -/
def byStatus (s : ExecutionStatus) (rows : List ExecutionRecord) : List ExecutionRecord :=
  rows.filter fun rec => rec.status = s

variable {chainID : ℤ} {t : ExecutionTable} {rows : List StatisticsRow}

theorem filter_group (s : ExecutionStatus) (k : StrategyKind) (recs : List ExecutionRecord) :
    (recs.filter fun rec => rec.group = (s, k))
      = (byStatus s recs).filter fun rec => rec.kind = k := by
  unfold byStatus
  rw [List.filter_filter]
  apply List.filter_congr
  intro rec _
  simp [ExecutionRecord.group, Bool.and_comm]

/-- Groups that the query does not return add nothing, so its rows add up
to a sum over all groups. -/
theorem sum_query {M : Type} [AddCommMonoid M] {c : StatisticsRow → M}
    (hc : ∀ s k, c ⟨s, k, 0, 0, 0⟩ = 0) (hrows : rows.Perm (statisticsQuery chainID t)) :
    (rows.map c).sum = ∑ g, c (aggregate (ofChain chainID t) g) := by
  rw [(hrows.map c).sum_eq, statisticsQuery, List.map_map,
    ← List.sum_toFinset _ (List.nodup_dedup _)]
  apply Finset.sum_subset (Finset.subset_univ _)
  intro g _ hg
  have hnone : ((ofChain chainID t).filter fun rec => rec.group = g) = [] := by
    rw [List.filter_eq_nil_iff]
    intro rec hrec heq
    apply hg
    rw [List.mem_toFinset, List.mem_dedup]
    exact List.mem_map.2 ⟨rec, hrec, of_decide_eq_true heq⟩
  have hempty : aggregate (ofChain chainID t) g = ⟨g.1, g.2, 0, 0, 0⟩ := by
    unfold aggregate
    rw [hnone]
    simp [mean]
  show c (aggregate (ofChain chainID t) g) = 0
  rw [hempty]
  exact hc g.1 g.2

/-- And what only one status adds is a sum over its kinds. -/
theorem sum_status {M : Type} [AddCommMonoid M] (s : ExecutionStatus)
    (F : ExecutionStatus × StrategyKind → M) :
    ∑ g, (if g.1 = s then F g else 0) = ∑ k, F (s, k) := by
  rw [Fintype.sum_prod_type, Finset.sum_eq_single s]
  · simp
  · intro s' _ hne
    simp [hne]
  · intro hs
    exact absurd (Finset.mem_univ s) hs

-- ================================================================== the figures

/-- What the figures of a chain should be: the counts of its rows, the mean
latency of its executed rows with an execution time, and the mean of the
gas they used, where they used any. -/
structure Statistics.Flat (stats : Statistics) (recs : List ExecutionRecord) : Prop where
  totals : ∀ s, stats.total s = (byStatus s recs).length
  lossless : ∑ s, stats.total s = recs.length
  kinds : ∀ s, stats.total s = ∑ k, (stats.entry k).total s
  entries : ∀ k s, (stats.entry k).total s
    = ((byStatus s recs).filter fun rec => rec.kind = k).length
  latency : stats.avgLatencyMs
    = mean ((byStatus .executed recs).filterMap ExecutionRecord.latencyMs)
  gas : stats.avgGasUsed = mean ((byStatus .executed recs).filterMap ExecutionRecord.gasSpent)

namespace Tally

theorem total_loop (hrows : rows.Perm (statisticsQuery chainID t)) (s : ExecutionStatus) :
    (rows.foldl add (start chainID)).stats.total s = (byStatus s (ofChain chainID t)).length := by
  rw [foldl_add (F := fun acc => acc.stats.total s) (fun acc row => add_total s),
    sum_query (by simp) hrows]
  have hstart : (start chainID).stats.total s = 0 := by cases s <;> rfl
  rw [hstart, zero_add]
  refine (sum_status s fun g => (aggregate (ofChain chainID t) g).count).trans ?_
  have hgroups : ∀ k, (aggregate (ofChain chainID t) (s, k)).count
      = ((byStatus s (ofChain chainID t)).filter fun rec => rec.kind = k).length := by
    intro k
    rw [← filter_group]
    rfl
  rw [Finset.sum_congr rfl fun k _ => hgroups k]
  exact_mod_cast sum_lengths ExecutionRecord.kind (byStatus s (ofChain chainID t))

theorem entry_loop (hrows : rows.Perm (statisticsQuery chainID t)) (k : StrategyKind)
    (s : ExecutionStatus) :
    ((rows.foldl add (start chainID)).stats.entry k).total s
      = ((byStatus s (ofChain chainID t)).filter fun rec => rec.kind = k).length := by
  rw [foldl_add (F := fun acc => (acc.stats.entry k).total s) (fun acc row => add_entry k s),
    sum_query (by simp) hrows]
  have hstart : ((start chainID).stats.entry k).total s = 0 := by cases s <;> rfl
  rw [hstart, zero_add, Finset.sum_eq_single (s, k), ← filter_group]
  · exact if_pos ⟨rfl, rfl⟩
  · intro g _ hne
    apply if_neg
    intro hg
    exact hne (Prod.ext hg.2 hg.1)
  · intro hg
    exact absurd (Finset.mem_univ _) hg

/-- Either average: the loop recombines the means of the kinds. -/
theorem weighted_loop {W : Tally → Weighted} {pick : StatisticsRow → ℚ}
    {value : ExecutionRecord → Option ℚ}
    (hadd : ∀ acc row, W (acc.add row)
      = if row.status = .executed then (W acc).add (pick row) row.count else W acc)
    (hstart : W (start chainID) = ⟨0, 0⟩)
    (hpick : ∀ recs g, pick (aggregate recs g)
      = mean ((recs.filter fun rec => rec.group = g).filterMap value))
    (hrows : rows.Perm (statisticsQuery chainID t)) :
    (W (rows.foldl add (start chainID))).mean
      = recombined value ExecutionRecord.kind (byStatus .executed (ofChain chainID t)) := by
  have hsum : (W (rows.foldl add (start chainID))).sum
      = ∑ k, weighted value
          ((byStatus .executed (ofChain chainID t)).filter fun rec => rec.kind = k) := by
    rw [foldl_add (F := fun acc => (W acc).sum) (c := fun row => if row.status = .executed then
        if 0 < pick row then pick row * row.count else 0 else 0), hstart, zero_add,
      sum_query (by simp) hrows]
    · refine (sum_status .executed fun g => if 0 < pick (aggregate (ofChain chainID t) g) then
        pick (aggregate (ofChain chainID t) g) * (aggregate (ofChain chainID t) g).count
          else 0).trans ?_
      apply Finset.sum_congr rfl
      intro k _
      rw [← filter_group, hpick]
      rfl
    · intro acc row
      rw [hadd]
      by_cases hs : row.status = .executed
      · rw [if_pos hs, if_pos hs]
        exact (weighted_add _ _ _).1
      · rw [if_neg hs, if_neg hs, add_zero]
  have hn : ((W (rows.foldl add (start chainID))).n : ℚ)
      = ∑ k, weight value
          ((byStatus .executed (ofChain chainID t)).filter fun rec => rec.kind = k) := by
    rw [foldl_add (F := fun acc => ((W acc).n : ℚ)) (c := fun row => if row.status = .executed then
        if 0 < pick row then (row.count : ℚ) else 0 else 0), hstart,
      sum_query (by simp) hrows]
    · rw [Nat.cast_zero, zero_add]
      refine (sum_status .executed fun g => if 0 < pick (aggregate (ofChain chainID t) g) then
        ((aggregate (ofChain chainID t) g).count : ℚ) else 0).trans ?_
      apply Finset.sum_congr rfl
      intro k _
      rw [← filter_group, hpick]
      rfl
    · intro acc row
      rw [hadd]
      by_cases hs : row.status = .executed
      · rw [if_pos hs, if_pos hs, (weighted_add _ _ _).2]
        push_cast
        rfl
      · rw [if_neg hs, if_neg hs, add_zero]
  unfold Weighted.mean recombined
  rw [← hsum, ← hn]
  split
  · rfl
  · rename_i hzero
    rw [Nat.eq_zero_of_not_pos hzero, Nat.cast_zero, div_zero]

end Tally

/-- What `GetStatistics` makes of the rows, as a whole. -/
theorem statistics_of_query (hrows : rows.Perm (statisticsQuery chainID t)) :
    ∃ stats, ExecutionRepo.getStatistics none chainID rows = .ok stats
      ∧ (∀ s, stats.total s = (byStatus s (ofChain chainID t)).length)
      ∧ (∀ k s, (stats.entry k).total s
          = ((byStatus s (ofChain chainID t)).filter fun rec => rec.kind = k).length)
      ∧ stats.avgLatencyMs = recombined ExecutionRecord.latencyMs ExecutionRecord.kind
          (byStatus .executed (ofChain chainID t))
      ∧ stats.avgGasUsed = recombined ExecutionRecord.gasSpent ExecutionRecord.kind
          (byStatus .executed (ofChain chainID t)) := by
  have hlatency : ∀ (acc : Tally) (row : StatisticsRow), (acc.add row).latency
      = if row.status = .executed then acc.latency.add row.avgMs row.count else acc.latency := by
    intro acc row
    obtain ⟨status, kind, count, avgMs, avgGas⟩ := row
    cases status <;> rfl
  have hgas : ∀ (acc : Tally) (row : StatisticsRow), (acc.add row).gas
      = if row.status = .executed then acc.gas.add row.avgGas row.count else acc.gas := by
    intro acc row
    obtain ⟨status, kind, count, avgMs, avgGas⟩ := row
    cases status <;> rfl
  refine ⟨(rows.foldl Tally.add (Tally.start chainID)).finish, rfl, ?_, ?_, ?_, ?_⟩
  · intro s
    rw [← Tally.total_loop hrows s]
    cases s <;> rfl
  · intro k s
    rw [← Tally.entry_loop hrows k s]
    rfl
  · exact Tally.weighted_loop hlatency rfl (fun _ _ => rfl) hrows
  · exact Tally.weighted_loop hgas rfl (fun _ _ => rfl) hrows

-- ================================================================ any division

/-- The same executions, divided among the kinds in another way. -/
def divide (f : ExecutionRecord → StrategyKind) (t : ExecutionTable) : ExecutionTable :=
  t.updateWhere (fun _ => true) (fun rec => { rec with kind := f rec }) fun _ => rfl

theorem executed_divide (f : ExecutionRecord → StrategyKind) :
    byStatus .executed (ofChain chainID (divide f t))
      = (byStatus .executed (ofChain chainID t)).map fun rec => { rec with kind := f rec } := by
  show List.filter _ (List.filter _ (t.rows.map fun rec => { rec with kind := f rec })) = _
  rw [List.filter_map, List.filter_map]
  rfl

section Divided

variable {value : ExecutionRecord → Option ℚ}
  (hvalue : ∀ (rec : ExecutionRecord) (k : StrategyKind), value { rec with kind := k } = value rec)
include hvalue

/-- Figures that do not read the kind. -/
theorem recombined_divide (f : ExecutionRecord → StrategyKind) :
    recombined value ExecutionRecord.kind (byStatus .executed (ofChain chainID (divide f t)))
      = recombined value f (byStatus .executed (ofChain chainID t)) := by
  rw [executed_divide, recombined_map]
  simp only [hvalue]

theorem values_divide (f : ExecutionRecord → StrategyKind) :
    (byStatus .executed (ofChain chainID (divide f t))).filterMap value
      = (byStatus .executed (ofChain chainID t)).filterMap value := by
  rw [executed_divide, List.filterMap_map]
  apply List.filterMap_congr
  intro rec _
  exact hvalue rec (f rec)

end Divided

/-- The statistics of a chain are the flat ones, however its executions are
divided among the kinds, exactly if durations and gas figures recombine. -/
theorem statistics_flat_iff (t : ExecutionTable) (chainID : ℤ) :
    (∀ (f : ExecutionRecord → StrategyKind) (rows : List StatisticsRow),
        rows.Perm (statisticsQuery chainID (divide f t)) →
        ∃ stats, ExecutionRepo.getStatistics none chainID rows = .ok stats
          ∧ stats.Flat (ofChain chainID (divide f t)))
      ↔ Recombines ExecutionRecord.latencyMs (byStatus .executed (ofChain chainID t))
        ∧ Recombines ExecutionRecord.gasSpent (byStatus .executed (ofChain chainID t)) := by
  have hms : ∀ (rec : ExecutionRecord) (k : StrategyKind),
      { rec with kind := k }.latencyMs = rec.latencyMs := fun _ _ => rfl
  have hgas : ∀ (rec : ExecutionRecord) (k : StrategyKind),
      { rec with kind := k }.gasSpent = rec.gasSpent := fun _ _ => rfl
  refine ⟨?_, ?_⟩
  · intro hflat
    obtain ⟨recs, hrecs⟩ : ∃ recs, recs = byStatus .executed (ofChain chainID t) := ⟨_, rfl⟩
    have hfigures : ∀ f : ExecutionRecord → StrategyKind,
        recombined ExecutionRecord.latencyMs f recs
            = mean (recs.filterMap ExecutionRecord.latencyMs)
          ∧ recombined ExecutionRecord.gasSpent f recs
            = mean (recs.filterMap ExecutionRecord.gasSpent) := by
      intro f
      rw [hrecs]
      obtain ⟨stats, hstats, hf⟩ := hflat f _ (List.Perm.refl _)
      obtain ⟨stats', hstats', -, -, hlatency, hspent⟩ :=
        statistics_of_query (List.Perm.refl (statisticsQuery chainID (divide f t)))
      rw [hstats] at hstats'
      cases hstats'
      refine ⟨?_, ?_⟩
      · rw [← recombined_divide hms f, ← hlatency, hf.latency, values_divide hms]
      · rw [← recombined_divide hgas f, ← hspent, hf.gas, values_divide hgas]
    have hlatency := fun f => (hfigures f).1
    have hspent := fun f => (hfigures f).2
    rw [← hrecs]
    exact ⟨recombines_of_forall hlatency, recombines_of_forall hspent⟩
  · intro hcond f rows hrows
    obtain ⟨hlatency, hspent⟩ := hcond
    obtain ⟨stats, hstats, htotals, hentries, hms', hgas'⟩ := statistics_of_query hrows
    refine ⟨stats, hstats, htotals, ?_, ?_, hentries, ?_, ?_⟩
    · rw [Finset.sum_congr rfl fun s _ => htotals s]
      exact_mod_cast sum_lengths ExecutionRecord.status (ofChain chainID (divide f t))
    · intro s
      rw [htotals, Finset.sum_congr rfl fun k _ => hentries k s]
      exact_mod_cast (sum_lengths ExecutionRecord.kind
        (byStatus s (ofChain chainID (divide f t)))).symm
    · rw [hms', recombined_divide hms, values_divide hms, recombined_eq_mean hlatency]
    · rw [hgas', recombined_divide hgas, values_divide hgas, recombined_eq_mean hspent]

-- ==================================================================== a sample

/-- An order that the indexer learnt of only when it was executed, and one
that took a minute. -/
def twoExecutions : ExecutionTable where
  rows :=
    [⟨"0xaa", 31337, .executed, .LIMIT, "0x01", 7, 21000, 0, some 0⟩,
      ⟨"0xbb", 31337, .executed, .DCA, "0x02", 8, 21000, 0, some 60000000⟩]
  unique := by decide

/-- The minute is all that is left of the average. -/
theorem zero_latency_left_out :
    ∃ stats, ExecutionRepo.getStatistics none 31337 (statisticsQuery 31337 twoExecutions)
        = .ok stats
      ∧ stats.avgLatencyMs = 60000
      ∧ ¬stats.Flat (ofChain 31337 twoExecutions) := by
  have hmean : mean ((byStatus .executed (ofChain 31337 twoExecutions)).filterMap
      ExecutionRecord.latencyMs) = 30000 := by decide +kernel
  refine ⟨_, rfl, by decide +kernel, ?_⟩
  intro hflat
  have hlatency := hflat.latency
  rw [hmean] at hlatency
  exact absurd hlatency (by decide +kernel)

end Zstrategy.Backend
