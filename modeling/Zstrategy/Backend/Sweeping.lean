/-
The sweeper alone recovers an order. A row that is EXECUTING, for whatever
reason, is watched again after steps of the sweeper only, if none of them
fails: at its first look once the row is ten minutes old, so a sweep
interval later at the latest.

The sweeper may stand anywhere in a sweep, or in the start-up, when the
row is left. What it has in its list then is older than the row's last
change, so it goes through its list, comes to its next tick, and looks
again.

# The measure

`Left` is the state of things when the row is left: its hash, since when it
has been EXECUTING, and by when it must be watched. `Recovers` says that the
sweeper's own steps lead from a state to one where the row is watched, by
that time. The lemmas `recovers_of_…` go backwards through the loop of the
sweeper, one for each stage: from the idle sweeper, where only time has to
pass, to a list of which some rows are still to be reset or started. `Timed`
is what the run contributes: wherever the sweeper stands, its next tick is
no further off than an interval.
-/
import Zstrategy.Backend.Recovery

namespace Zstrategy.Backend

open Lib

-- ==================================================================== the tickers

namespace Ticker

/-- It ticks once a sweep interval, and no tick came early. -/
structure Kept (t : Ticker) (now : ℤ) : Prop where
  period : t.period = stuckSweepInterval
  taken : t.taken ≤ t.elapsed now

variable {t : Ticker} {now now' : ℤ}

/-- The periods that have passed only grow. -/
theorem Kept.elapsed_mono (hk : t.Kept now) (hle : now ≤ now') :
    t.elapsed now ≤ t.elapsed now' := by
  unfold elapsed
  rw [hk.period]
  exact Int.ediv_le_ediv (by decide) (by omega)

/-- A ticker that has kept up keeps up until later. -/
theorem Kept.later (hk : t.Kept now) (hle : now ≤ now') : t.Kept now' :=
  ⟨hk.period, hk.taken.trans (hk.elapsed_mono hle)⟩

/-- A tick is taken no later than now. -/
theorem Kept.take (hk : t.Kept now) : (t.take now).Kept now := ⟨hk.period, le_refl _⟩

/-- A new ticker has kept up. -/
theorem kept_new (now : ℤ) : Kept ⟨now, stuckSweepInterval, 0⟩ now := by
  refine ⟨rfl, ?_⟩
  unfold elapsed
  rw [sub_self, Int.zero_ediv]

/-- A sweep interval from now it has ticked. -/
theorem Kept.due (hk : t.Kept now) (hle : now + stuckSweepInterval ≤ now') : t.Due now' := by
  have hnext : t.elapsed (now + stuckSweepInterval) = t.elapsed now + 1 := by
    unfold elapsed
    rw [hk.period, add_sub_right_comm, Int.add_ediv_of_dvd_right (dvd_refl _),
      Int.ediv_self (by decide)]
  have hnow : t.Kept (now + stuckSweepInterval) := hk.later (by omega)
  have hmono := hnow.elapsed_mono hle
  have htaken := hk.taken
  unfold Due
  omega

end Ticker

/-- The sweep that it is in, or waits for. -/
def Routine.sweeps : Routine → Option Sweep
  | .idle ticker => some (.periodic ticker)
  | .find w | .reset w _ | .startAll w _ => some w
  | .list => some .rehydrate
  | _ => none

def Sweep.Kept (now : ℤ) : Sweep → Prop
  | .rehydrate => True
  | .periodic ticker => ticker.Kept now

namespace MonitorState

variable {hasRegistry : Bool} {st st' : MonitorState} {i : ℕ} {j k : Routine} {h c : String}
  {s : PendingStrategy} {w : Sweep}

/-- Every sweeper's ticker is kept. -/
def Timed (st : MonitorState) : Prop :=
  ∀ j ∈ st.routines, ∀ w, j.sweeps = some w → w.Kept st.now

/-- A goroutine goes on, with a ticker that has kept up if it sweeps. -/
theorem Timed.put (ht : st.Timed) (hk : ∀ w, k.sweeps = some w → w.Kept st.now) :
    (st.put i k).Timed := by
  intro j hj
  rcases mem_put hj with hold | rfl
  · exact ht j hold
  · exact hk

/-- A goroutine is added, with a ticker that has kept up if it sweeps. -/
theorem Timed.spawn (ht : st.Timed) (hk : ∀ w, k.sweeps = some w → w.Kept st.now) :
    (st.spawn k).Timed := by
  intro j hj
  rcases mem_spawn hj with hold | rfl
  · exact ht j hold
  · exact hk

/-- Time passes, and the goroutines stay where they are. -/
theorem Timed.same (ht : st.Timed) (hr : st'.routines = st.routines) (hnow : st.now ≤ st'.now) :
    st'.Timed := by
  intro j hj w hw
  rw [hr] at hj
  have hkept := ht j hj w hw
  cases w with
  | rehydrate => trivial
  | periodic ticker => exact hkept.later hnow

/-- A monitor has no sweeper's ticker. -/
theorem Timed.start (ht : st.Timed) (s : PendingStrategy) : (st.start s).Timed := by
  intro j hj
  rw [start_now]
  rcases mem_start hj with hold | ⟨-, rfl⟩
  · exact ht j hold
  · intro w hw
    cases hw

/-- The sweeper that comes out of the start-up has a new ticker. -/
theorem Timed.boot (ht : st.Timed) : (st.boot i).Timed := by
  have hended : (st.put i .ended).Timed := ht.put fun w hw => by cases hw
  have hspawn := hended.spawn (k := .idle ⟨st.now, stuckSweepInterval, 0⟩) ?_
  · exact hspawn.same rfl (le_refl _)
  · intro w hw
    cases hw
    exact Ticker.kept_new st.now

/-- After a crash there is no goroutine. -/
theorem timed_crash : st.crash.Timed := by
  intro j hj
  cases hj

/-- A goroutine that slices a hash goes on, or there is none any more. -/
theorem Timed.slice {next : MonitorState} (hn : next.Timed) : (st.slice c next).Timed := by
  rcases slice_cases st c next with ⟨-, hs⟩ | hs
  · rw [hs]
    exact hn
  · rw [hs]
    exact timed_crash

/-- Likewise for a monitor whose write failed. -/
theorem Timed.updateFailed (ht : st.Timed) (l : Loop) (v : Verdict) :
    (st.updateFailed i l v).Timed := by
  cases v with
  | expired | met => exact Timed.slice (ht.put fun w hw => by cases hw)

/-- The ticker has kept up after every step of a goroutine: the sweeper
passes it on from stage to stage, and renews it by taking a tick that is
due. -/
theorem Timed.run {fault : Fault} {pairPrice : PairPrice} {reply : Option ℕ} (ht : st.Timed)
    (hj : st.routines[i]? = some j)
    (hrun : st.run hasRegistry i fault pairPrice reply j = some st') : st'.Timed := by
  -- a goroutine that does not sweep
  have plain : ∀ {k : Routine}, k.sweeps = none → (st.put i k).Timed := by
    intro k hk
    refine ht.put fun w hw => ?_
    rw [hk] at hw
    cases hw
  -- the sweeper, on the ticker that it had
  have goes : ∀ {k : Routine}, k.sweeps = j.sweeps → (st.put i k).Timed := by
    intro k hk
    refine ht.put fun w hw => ht j (List.mem_of_getElem? hj) w ?_
    rw [← hk]
    exact hw
  cases ran_of_run hrun with
  | begun | ticked | unmet | sent | stranded | unmarked | recovered => exact plain rfl
  | unjudged | judged | answered | rejected => exact Timed.slice (plain rfl)
  | cancelled l v | unwritten l v => exact ht.updateFailed l v
  | wrote l v t hu => exact (plain (k := .wrote l v) rfl).same rfl (le_refl _)
  | expired l => exact (plain (k := .select l) rfl).same rfl (le_refl _)
  | met l =>
      have hspawn : ((st.put i (.select l)).spawn (.trigger l.strategy l.ctx)).Timed :=
        Timed.spawn (plain rfl) fun w hw => by cases hw
      exact hspawn.same rfl (le_refl _)
  | posted s sender => exact (plain (k := .posted s) rfl).same rfl (le_refl _)
  | rolledBack s t hu =>
      exact (plain (k := .resume { s with status := .PENDING }) rfl).same rfl (le_refl _)
  | resumed s | registered s => exact Timed.start (plain rfl) s
  | woken ticker =>
      refine ht.put fun w hw => ?_
      cases hw
      exact Ticker.Kept.take (ht _ (List.mem_of_getElem? hj) _ rfl)
  | noneStuck w | notReset w => exact goes (by cases w <;> rfl)
  | someStuck w stuck hu => exact goes rfl
  | rehydrated stuck t hu => exact (goes (k := .list) rfl).same rfl (le_refl _)
  | swept ticker stuck t hu =>
      have hput : (st.put i (.startAll (.periodic ticker)
          (stuck.map fun s => { s with status := .PENDING }))).Timed := goes rfl
      exact hput.same rfl (le_refl _)
  | unlisted | booted => exact ht.boot
  | listed rows hu => exact goes rfl
  | started w s rest => exact Timed.start (goes (k := .startAll w rest) rfl) s
  | slept ticker => exact goes rfl
  | stoppedFirst c => exact (plain (k := .finish c false) rfl).same rfl (le_refl _)
  | marked c recovers t hu => exact (plain (k := .finished c) rfl).same rfl (le_refl _)
  | panicked c hsize => exact timed_crash
  | stopped c => exact (plain (k := .ended) rfl).same rfl (le_refl _)

/-- It has kept up after every step of the machine. -/
theorem Timed.step {e : MonitorStep} (ht : st.Timed)
    (hstep : st.step hasRegistry e = some st') : st'.Timed := by
  have spawned : ∀ {k : Routine}, k.sweeps = none → (st.spawn k).Timed := by
    intro k hk
    refine ht.spawn fun w hw => ?_
    rw [hk] at hw
    cases hw
  cases e with
  | wait d =>
      cases hstep
      refine ht.same rfl ?_
      show st.now ≤ st.now + d
      omega
  | register s fault =>
      simp only [MonitorState.step, MonitorState.register] at hstep
      split at hstep
      · split at hstep
        · cases hstep
          have hspawn : ∀ row, (st.spawn (.registered row)).Timed := fun row => spawned rfl
          exact (hspawn _).same rfl (le_refl _)
        · cases hstep
          exact ht
      · cases hstep
  | event topic =>
      simp only [MonitorState.step] at hstep
      split at hstep
      · cases hstep
        exact spawned rfl
      · cases hstep
  | callback c =>
      simp only [MonitorState.step] at hstep
      split at hstep
      · cases hstep
        exact spawned rfl
      · cases hstep
  | run i fault pairPrice reply =>
      simp only [MonitorState.step] at hstep
      split at hstep
      · cases hstep
      · rename_i j hj
        exact ht.run hj hstep
  | leave i =>
      simp only [MonitorState.step] at hstep
      split at hstep
      · split at hstep
        · cases hstep
          exact ht.put fun w hw => by cases hw
        · cases hstep
      · cases hstep

-- =================================================================== the sweeper

/-- Time passes, or the sweeper moves and nothing fails. -/
def SweeperOnly (st : MonitorState) : MonitorStep → Prop
  | .wait _ => True
  | .run i fault _ _ => fault = none ∧ ∃ j, st.routines[i]? = some j ∧ j.sweep.isSome
  | _ => False

/-- The sweeper alone comes to watch `h`, by `limit`. -/
def Recovers (hasRegistry : Bool) (h : String) (limit : ℤ) (st : MonitorState) : Prop :=
  ∃ st', (monitorService hasRegistry).Run SweeperOnly st st' ∧ st'.crashed = false
    ∧ st'.now ≤ limit ∧ (st'.monitors.stopChans h).isSome

variable {limit : ℤ}

/-- Nothing is left to do for a row that is watched. -/
theorem recovers_of_watched (hup : st.crashed = false) (hnow : st.now ≤ limit)
    (hwatched : (st.monitors.stopChans h).isSome) : Recovers hasRegistry h limit st :=
  ⟨st, .refl st, hup, hnow, hwatched⟩

/-- One step of the sweeper more. -/
theorem Recovers.before {u : MonitorState} {e : MonitorStep} (hr : Recovers hasRegistry h limit u)
    (hup : st.crashed = false) (he : SweeperOnly st e)
    (hstep : st.step hasRegistry e = some u) : Recovers hasRegistry h limit st := by
  obtain ⟨last, hrun, hlast⟩ := hr
  have hown : (monitorService hasRegistry).step e st = some u := by
    simp only [monitorService, hup]
    exact hstep
  have hfirst : (monitorService hasRegistry).Run SweeperOnly st u := .tail e (.refl st) he hown
  exact ⟨last, hfirst.trans hrun, hlast⟩

/-- The sweeper's next step. -/
theorem Recovers.run {u : MonitorState} (hr : Recovers hasRegistry h limit u)
    (hup : st.crashed = false) (hj : st.routines[i]? = some j) (hsweep : j.sweep.isSome)
    (hrun : st.run hasRegistry i none (.error "") none j = some u) :
    Recovers hasRegistry h limit st := by
  refine hr.before (e := .run i none (.error "") none) hup ⟨rfl, j, hj, hsweep⟩ ?_
  simp only [MonitorState.step, hj]
  exact hrun

/-- The goroutine that went on is where it went. -/
theorem getElem?_put_self (hj : st.routines[i]? = some j) : (st.put i k).routines[i]? = some k :=
  List.getElem?_set_self (List.getElem?_eq_some_iff.1 hj).1

/-- A new monitor comes after the goroutines there are. -/
theorem getElem?_start (hj : st.routines[i]? = some j) :
    (st.start s).routines[i]? = some j := by
  unfold MonitorState.start
  cases st.monitors.stopChans s.commitmentHash with
  | some tm => exact hj
  | none =>
      show (st.routines ++ [_])[i]? = some j
      rw [List.getElem?_append_left (List.getElem?_eq_some_iff.1 hj).1]
      exact hj

/-- A hash whose monitor was started is watched. -/
theorem start_watches : ((st.start s).monitors.stopChans s.commitmentHash).isSome := by
  rw [start_monitors]
  cases hentry : st.monitors.stopChans s.commitmentHash with
  | some tm =>
      have hsame : st.monitors.startMonitoring s = st.monitors := by
        unfold Monitors.startMonitoring
        rw [hentry]
      rw [hsame, hentry]
      rfl
  | none =>
      rw [Monitors.startMonitoring_fresh hentry]
      rfl

/-- It starts whom it lists. -/
theorem recovers_of_listed {rest : List PendingStrategy} (hup : st.crashed = false)
    (hnow : st.now ≤ limit) (hj : st.routines[i]? = some (.startAll w rest))
    (hin : h ∈ rest.map PendingStrategy.commitmentHash) : Recovers hasRegistry h limit st := by
  induction rest generalizing st with
  | nil => cases hin
  | cons s rest ih =>
      have hnext : ((st.put i (.startAll w rest)).start s).routines[i]?
          = some (.startAll w rest) := getElem?_start (getElem?_put_self hj)
      have hup' : ((st.put i (.startAll w rest)).start s).crashed = false :=
        start_crashed.trans hup
      have hnow' : ((st.put i (.startAll w rest)).start s).now ≤ limit := by
        rw [start_now]
        exact hnow
      refine Recovers.run (u := (st.put i (.startAll w rest)).start s) ?_ hup hj rfl
        (by cases w <;> rfl)
      by_cases heq : s.commitmentHash = h
      · rw [← heq]
        exact recovers_of_watched hup' hnow' start_watches
      · refine ih hup' hnow' hnext ?_
        rcases List.mem_cons.1 hin with hhead | htail
        · exact absurd hhead.symm heq
        · exact htail

/-- The start-up lists the rows that wait. -/
theorem recovers_of_pending (hup : st.crashed = false) (hnow : st.now ≤ limit)
    (hj : st.routines[i]? = some .list) (hrow : st.strategies.find h = some s)
    (hstatus : s.status = .PENDING) : Recovers hasRegistry h limit st := by
  refine Recovers.run (u := st.put i (.startAll .rehydrate
    (st.strategies.rows.filter fun s => s.status = .PENDING))) ?_ hup hj rfl rfl
  refine recovers_of_listed (w := .rehydrate) hup hnow (getElem?_put_self hj) ?_
  rw [listed_of_filter hrow]
  simp [hstatus]

/-- It resets the rows that it found, and starts them. -/
theorem recovers_of_found {rows : List PendingStrategy} (hup : st.crashed = false)
    (hnow : st.now ≤ limit) (hj : st.routines[i]? = some (.reset w rows))
    (hrow : st.strategies.find h = some s)
    (hin : h ∈ rows.map PendingStrategy.commitmentHash) : Recovers hasRegistry h limit st := by
  obtain ⟨t, hu⟩ : ∃ t, StrategyRepo.resetStuck none st.now
      (rows.map PendingStrategy.commitmentHash) st.strategies = .ok t := ⟨_, rfl⟩
  cases w with
  | rehydrate =>
      refine Recovers.run (u := { st.put i .list with strategies := t }) ?_ hup hj rfl ?_
      · obtain ⟨s', hrow', hstatus⟩ : ∃ s', t.find h = some s' ∧ s'.status = .PENDING := by
          obtain ⟨-, rfl⟩ := query_eq_ok.1 hu
          have hkey : s.commitmentHash = h := Table.key_of_find hrow
          refine ⟨StrategyRepo.setStatus st.now .PENDING s, ?_, rfl⟩
          rw [Table.find_updateWhere, hrow]
          exact congrArg some (if_pos (by simpa [hkey] using hin))
        exact recovers_of_pending (i := i) hup hnow (getElem?_put_self hj) hrow' hstatus
      · simp only [MonitorState.run, hu]
  | periodic ticker =>
      refine Recovers.run (u := { st.put i (.startAll (.periodic ticker)
        (rows.map fun s => { s with status := .PENDING })) with strategies := t }) ?_ hup hj rfl ?_
      · refine recovers_of_listed (i := i) hup hnow (getElem?_put_self hj) ?_
        rw [List.map_map]
        exact hin
      · simp only [MonitorState.run, hu]

/-- What it finds when it looks. -/
def stuck (st : MonitorState) (w : Sweep) : List PendingStrategy :=
  st.strategies.rows.filter fun s => s.status = .EXECUTING
    && (decide ((w.olderThan : ℤ) ≤ 0) || decide (s.updatedAt < st.now - w.olderThan))

/-- The sweeper looks for stuck rows, and has some to reset or goes on to
its next tick. -/
theorem run_find :
    st.run hasRegistry i none (.error "") none (.find w)
      = some (st.put i (if st.stuck w = [] then afterReset w else .reset w (st.stuck w))) := by
  have hfind : StrategyRepo.findStuck none st.now w.olderThan st.strategies
      = .ok (st.stuck w) := rfl
  simp only [MonitorState.run, hfind]
  cases st.stuck w with
  | nil => rfl
  | cons s rest => rfl

/-- It looks, and the row is stuck. -/
theorem recovers_of_stuck (hup : st.crashed = false) (hnow : st.now ≤ limit)
    (hj : st.routines[i]? = some (.find w)) (hrow : st.strategies.find h = some s)
    (hin : h ∈ (st.stuck w).map PendingStrategy.commitmentHash) :
    Recovers hasRegistry h limit st := by
  have hsome : st.stuck w ≠ [] := by
    intro hnil
    rw [hnil] at hin
    cases hin
  refine Recovers.run (u := st.put i (.reset w (st.stuck w))) ?_ hup hj (by cases w <;> rfl) ?_
  · exact recovers_of_found hup hnow (getElem?_put_self hj) hrow hin
  · rw [run_find, if_neg hsome]

-- ================================================================ wherever it stands

/-- The row is EXECUTING, and `limit` leaves it time to get stuck and the
sweeper time to tick. -/
structure Left (h : String) (limit : ℤ) (st : MonitorState) : Prop where
  up : st.crashed = false
  row : ∃ s, st.strategies.find h = some s ∧ s.status = .EXECUTING
    ∧ s.updatedAt + stuckExecutingThreshold + 1 + stuckSweepInterval ≤ limit
  now : st.now + stuckSweepInterval ≤ limit

/-- The row is left before it must be watched. -/
theorem Left.before (hl : Left h limit st) : st.now ≤ limit := by
  have hnow := hl.now
  omega

/-- Nothing has happened to the row. -/
theorem Left.same (hl : Left h limit st) (hup : st'.crashed = st.crashed)
    (hrows : st'.strategies = st.strategies) (hnow : st'.now = st.now) : Left h limit st' := by
  refine ⟨hup.trans hl.up, ?_, ?_⟩
  · rw [hrows]
    exact hl.row
  · rw [hnow]
    exact hl.now

/-- A goroutine goes on without touching the row. -/
theorem Left.put (hl : Left h limit st) : Left h limit (st.put i k) := hl.same rfl rfl rfl

/-- The sweeper waits for its tick, takes it, looks, and finds the row. -/
theorem recovers_of_idle {ticker : Ticker} (hl : Left h limit st)
    (hj : st.routines[i]? = some (.idle ticker)) (hkept : ticker.Kept st.now) :
    Recovers hasRegistry h limit st := by
  obtain ⟨s, hrow, hstatus, hold⟩ := hl.row
  have hnow := hl.now
  -- at the limit the row is stuck and the ticker has ticked
  obtain ⟨d, hd⟩ := Int.eq_ofNat_of_zero_le (sub_nonneg.2 hl.before)
  have hlater : st.now + (d : ℤ) = limit := by
    rw [← hd]
    exact add_sub_cancel st.now limit
  have hdue : ticker.Due (st.now + d) := hkept.due (by omega)
  have hup : ({ st with now := st.now + d } : MonitorState).crashed = false := hl.up
  have hlook : Recovers hasRegistry h limit (({ st with now := st.now + d } : MonitorState).put i
      (.find (.periodic (ticker.take (st.now + d))))) := by
    refine recovers_of_stuck (i := i) hup hlater.le (getElem?_put_self hj) hrow ?_
    refine (listed_of_filter hrow).2 ?_
    have hstale : s.updatedAt < st.now + d - stuckExecutingThreshold := by
      have hpos : (0 : ℤ) < stuckSweepInterval := by decide
      omega
    simp [hstatus, Sweep.olderThan, put, hstale]
  have hwoken : Recovers hasRegistry h limit { st with now := st.now + d } :=
    hlook.run hup hj rfl (by simp [MonitorState.run, hdue])
  exact hwoken.before (e := .wait d) hl.up trivial rfl

/-- The start-up has ended, and the new sweeper waits. -/
theorem recovers_of_boot (hl : Left h limit st) : Recovers hasRegistry h limit (st.boot i) := by
  have hidle : (st.boot i).routines[st.routines.length]?
      = some (.idle ⟨st.now, stuckSweepInterval, 0⟩) := by
    have hlength : (st.routines.set i .ended).length = st.routines.length := List.length_set
    show (st.routines.set i .ended ++ [_])[st.routines.length]? = some _
    rw [← hlength]
    exact List.getElem?_concat_length
  exact recovers_of_idle (hl.same rfl rfl rfl) hidle (Ticker.kept_new st.now)

/-- The sweeper starts the monitors of its list. The row is among them, or
it is found the next time. By induction on the list. -/
theorem recovers_of_startAll {rest : List PendingStrategy} (hl : Left h limit st)
    (hj : st.routines[i]? = some (.startAll w rest)) (hkept : w.Kept st.now) :
    Recovers hasRegistry h limit st := by
  induction rest generalizing st with
  | nil =>
      cases w with
      | rehydrate => exact (recovers_of_boot (i := i) hl).run hl.up hj rfl rfl
      | periodic ticker =>
          have hidle : Recovers hasRegistry h limit (st.put i (.idle ticker)) :=
            recovers_of_idle hl.put (getElem?_put_self hj) hkept
          exact hidle.run hl.up hj rfl rfl
  | cons s rest ih =>
      have hnext : Recovers hasRegistry h limit ((st.put i (.startAll w rest)).start s) := by
        refine ih ?_ (getElem?_start (getElem?_put_self hj)) ?_
        · exact hl.put.same start_crashed start_strategies start_now
        · rw [start_now]
          exact hkept
      exact hnext.run hl.up hj rfl (by cases w <;> rfl)

/-- The start-up lists the pending rows, starts them, and goes on as
above. -/
theorem recovers_of_list (hl : Left h limit st) (hj : st.routines[i]? = some .list) :
    Recovers hasRegistry h limit st := by
  refine Recovers.run (u := st.put i (.startAll .rehydrate
    (st.strategies.rows.filter fun s => s.status = .PENDING))) ?_ hl.up hj rfl rfl
  exact recovers_of_startAll (w := .rehydrate) hl.put (getElem?_put_self hj) trivial

/-- The sweeper resets what it found, and starts it. -/
theorem recovers_of_reset {rows : List PendingStrategy} (hl : Left h limit st)
    (hj : st.routines[i]? = some (.reset w rows)) (hkept : w.Kept st.now) :
    Recovers hasRegistry h limit st := by
  obtain ⟨s, hrow, hstatus, hold⟩ := hl.row
  by_cases hin : h ∈ rows.map PendingStrategy.commitmentHash
  · exact recovers_of_found hl.up hl.before hj hrow hin
  -- what it resets is not the row
  obtain ⟨t, hu⟩ : ∃ t, StrategyRepo.resetStuck none st.now
      (rows.map PendingStrategy.commitmentHash) st.strategies = .ok t := ⟨_, rfl⟩
  have hrow' : t.find h = some s := by
    have hkey : s.commitmentHash = h := Table.key_of_find hrow
    obtain ⟨-, rfl⟩ := query_eq_ok.1 hu
    rw [Table.find_updateWhere, hrow]
    exact congrArg some (if_neg (by simpa [hkey] using hin))
  have hleft : ∀ k, Left h limit { st.put i k with strategies := t } := fun k =>
    ⟨hl.up, ⟨s, hrow', hstatus, hold⟩, hl.now⟩
  cases w with
  | rehydrate =>
      refine Recovers.run (u := { st.put i .list with strategies := t }) ?_ hl.up hj rfl ?_
      · exact recovers_of_list (hleft .list) (getElem?_put_self hj)
      · simp only [MonitorState.run, hu]
  | periodic ticker =>
      refine Recovers.run (u := { st.put i (.startAll (.periodic ticker)
        (rows.map fun s => { s with status := .PENDING })) with strategies := t })
        ?_ hl.up hj rfl ?_
      · exact recovers_of_startAll (hleft _) (getElem?_put_self hj) hkept
      · simp only [MonitorState.run, hu]

/-- The sweeper looks, and the row is old enough to be found, or it is found
the next time. -/
theorem recovers_of_find (hl : Left h limit st) (hj : st.routines[i]? = some (.find w))
    (hkept : w.Kept st.now) : Recovers hasRegistry h limit st := by
  refine Recovers.run (u := st.put i (if st.stuck w = [] then afterReset w
    else .reset w (st.stuck w))) ?_ hl.up hj (by cases w <;> rfl) run_find
  split
  · cases w with
    | rehydrate => exact recovers_of_list hl.put (getElem?_put_self hj)
    | periodic ticker => exact recovers_of_idle hl.put (getElem?_put_self hj) hkept
  · exact recovers_of_reset hl.put (getElem?_put_self hj) hkept

/-- Wherever the sweeper stands: one case for each stage. -/
theorem recovers_of_sweeper (hl : Left h limit st) (ht : st.Timed)
    (hj : st.routines[i]? = some j) (hsweep : j.sweep.isSome) :
    Recovers hasRegistry h limit st := by
  have hkept : ∀ w, j.sweeps = some w → w.Kept st.now := ht j (List.mem_of_getElem? hj)
  cases j with
  | idle ticker => exact recovers_of_idle hl hj (hkept _ rfl)
  | find w => exact recovers_of_find hl hj (hkept w rfl)
  | reset w rows => exact recovers_of_reset hl hj (hkept w rfl)
  | list => exact recovers_of_list hl hj
  | startAll w rest => exact recovers_of_startAll hl hj (hkept w rfl)
  | _ => cases hsweep

-- =================================================================== all runs

/-- There is a sweeper, and it is in time. -/
theorem sweeper_of_run {strategies : StrategyTable} {now : ℤ}
    (hrun : (monitorService hasRegistry).Run Machine.anyStep (initial strategies now) st)
    (hup : st.crashed = false) : Swept ∅ st ∧ st.Timed := by
  have hinv : (st.crashed = false → Swept ∅ st) ∧ st.Timed := by
    refine hrun.inv (I := fun st => (st.crashed = false → Swept ∅ st) ∧ st.Timed) ?_
      ⟨fun _ => swept_initial, ?_⟩
    · intro st e st' hst _ hstep
      obtain ⟨hw, ht⟩ := hst
      obtain ⟨hup, hown⟩ := up_of_step hstep
      have hunheard : Unheard ∅ e := by
        cases e with
        | event | callback => exact Set.notMem_empty _
        | _ => trivial
      exact ⟨(hw hup).step hunheard hown, ht.step hown⟩
    · intro j hj w hw
      obtain rfl := List.mem_singleton.1 hj
      cases hw
      trivial
  exact ⟨hinv.1 hup, hinv.2⟩

/-- There is a sweeper, or the start-up that becomes it. -/
theorem Swept.sweeper {K : Set String} (hw : Swept K st) :
    ∃ (i : ℕ) (j : Routine), st.routines[i]? = some j ∧ j.sweep.isSome := by
  have hsome : ∃ j ∈ st.routines, j.sweep.isSome := by
    rcases hw.stage with hstage | ⟨hr, -⟩
    · have hmem : false ∈ st.routines.filterMap Routine.sweep := by
        rw [hstage]
        exact List.mem_singleton_self _
      obtain ⟨j, hj, hsweep⟩ := List.mem_filterMap.1 hmem
      exact ⟨j, hj, by rw [hsweep]; rfl⟩
    · obtain ⟨j, hroutines, hsweep⟩ := hr
      refine ⟨j, ?_, by rw [hsweep]; rfl⟩
      rw [hroutines]
      exact List.mem_singleton_self _
  obtain ⟨j, hj, hsweep⟩ := hsome
  obtain ⟨i, hi⟩ := List.getElem?_of_mem hj
  exact ⟨i, j, hi, hsweep⟩

end MonitorState

open MonitorState

/-- However a run left a row `EXECUTING`, the sweeper alone starts its
monitor again, a sweep interval after it counts as stuck. -/
theorem sweeper_recovers_orders {strategies : StrategyTable} {now : ℤ} {hasRegistry : Bool}
    {st : MonitorState} {h : String} {s : PendingStrategy}
    (hrun : (monitorService hasRegistry).Run Machine.anyStep (initial strategies now) st)
    (hup : st.crashed = false) (hrow : st.strategies.find h = some s)
    (hstatus : s.status = .EXECUTING) :
    ∃ st', (monitorService hasRegistry).Run SweeperOnly st st' ∧ st'.crashed = false
      ∧ (∃ n, st'.Lives n h)
      ∧ st'.now ≤ max st.now (s.updatedAt + stuckExecutingThreshold + 1) + stuckSweepInterval := by
  obtain ⟨hw, ht⟩ := sweeper_of_run hrun hup
  obtain ⟨i, j, hj, hsweep⟩ := hw.sweeper
  have hleft : Left h (max st.now (s.updatedAt + stuckExecutingThreshold + 1)
      + stuckSweepInterval) st := by
    refine ⟨hup, ⟨s, hrow, hstatus, ?_⟩, ?_⟩
    · exact add_le_add_left (le_max_right _ _) _
    · exact add_le_add_left (le_max_left _ _) _
  have hrecovers : Recovers hasRegistry h (max st.now (s.updatedAt + stuckExecutingThreshold + 1)
      + stuckSweepInterval) st := recovers_of_sweeper hleft ht hj hsweep
  obtain ⟨st', hrun', hup', hnow', hwatched⟩ := hrecovers
  refine ⟨st', hrun', hup', ?_, hnow'⟩
  -- an entry is that of a living monitor
  have hagrees : st'.Agrees := by
    have hfirst : st.Agrees := hrun.inv (I := Agrees) (fun st e st' hst _ hstep => hst.step hstep)
      fun _ => tallied_initial
    exact hrun'.inv (I := Agrees) (fun st e st' hst _ hstep => hst.step hstep) hfirst
  obtain ⟨tm, htm⟩ := Option.isSome_iff_exists.1 hwatched
  obtain ⟨halive, n, hwatches⟩ := (hagrees hup').lives h tm htm
  exact ⟨n, tm.ctx, hwatches, halive⟩

/-- The keeper's answer never comes, and nobody has the order in hand. -/
def lostBackend : MonitorState :=
  (monitorService false).endOf (fun _ _ => true) (untilPosted ++ [goOn 4]) emptyBackend

/-- A row whose trigger is lost is watched again after 15 minutes. -/
theorem sweeper_recovers_orders_sample :
    ∃ st', (monitorService false).Run SweeperOnly lostBackend st'
      ∧ (∃ n, st'.Lives n sampleHash) ∧ st'.now ≤ 900 * second + 1 := by
  have hlost : (lostBackend.strategies.find sampleHash).map
      (fun s => (s.status, s.updatedAt)) = some (.EXECUTING, 0) := by decide +kernel
  obtain ⟨s, hrow, hs⟩ := Option.map_eq_some_iff.1 hlost
  obtain ⟨hstatus, hupdated⟩ := Prod.mk.inj hs
  have hrun : (monitorService false).Run Machine.anyStep (initial .empty 0) lostBackend :=
    .endOf (fun _ _ _ => trivial) (by decide +kernel)
  have hnow : lostBackend.now = 0 := by decide +kernel
  obtain ⟨st', hrun', -, hlives, hlimit⟩ :=
    sweeper_recovers_orders hrun (by decide +kernel) hrow hstatus
  refine ⟨st', hrun', hlives, hlimit.trans ?_⟩
  rw [hnow, hupdated]
  decide

end Zstrategy.Backend
