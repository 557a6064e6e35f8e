/-
No order is left behind. While an order is open, somebody has it in hand:
the goroutine that is about to start its monitor, the monitor, the trigger
that the monitor became, or the sweep that found it stuck. What a
goroutine has in hand says what status the row has meanwhile
(`MonitorState.hand`), at most one goroutine has it in hand
(`Cared.hands`), and a row that nobody has in hand is EXECUTING, so that
the sweeper finds it.

Three things have to be asked of a run. A start-up whose `ListPending`
fails watches nothing until the next one. An order whose execution or
cancellation was heard of is let go. And a trigger must be over by the
time its row counts as stuck: a sweep that finds the row of a trigger
still on its way hands the order to a second goroutine, and the first may
then end with the row `PENDING` and its monitor stopped.

# How it goes

`Swept` is about the sweeper: one goroutine sweeps, or is the start-up that
will, its lists repeat no hash, and nobody lets go of the order. `Tended` is
about one hash: while its order is open and the start-up is over, the row
has a status that fits what is in hand. Each has a lemma for each way in
which a step changes the state (a goroutine goes on, is started, is stopped,
or all of them end in a crash), and a step lemma put together from these.
The run lemma carries both, with what `Finality` and `LiveMonitors` say of
the contexts, as `Minded`.
-/
import Zstrategy.Backend.OneMonitor
import Zstrategy.Backend.ShortHashes
import Zstrategy.Lib.Holders

namespace Zstrategy.Backend

open Lib

-- ================================================================ the goroutines

/-- Where the sweeper stands: `true` up to `ListPending`. -/
def Routine.sweep : Routine → Option Bool
  | .find .rehydrate | .reset .rehydrate _ | .list => some true
  | .idle _ | .find (.periodic _) | .reset (.periodic _) _ | .startAll _ _ => some false
  | _ => none

/-- The hashes of the rows that it goes through. -/
def Routine.listed : Routine → List String
  | .reset _ rows | .startAll _ rows => rows.map PendingStrategy.commitmentHash
  | _ => []

/-- The hash that it stops and marks for someone who heard of its end. -/
def Routine.lets : Routine → Option String
  | .stopFirst c | .finish c _ | .finished c => some c
  | _ => none

/-- It sends the order of `h` to the keeper. -/
def Routine.Sends (h : String) : Routine → Prop
  | .wrote l .met => l.hash = h
  | .trigger s _ | .posted s | .rollback s => s.commitmentHash = h
  | _ => False

/-- Not past its expiry. -/
def PendingStrategy.Open (s : PendingStrategy) (now : ℤ) : Prop :=
  ¬(0 < s.expiry ∧ s.expiry < unix now)

namespace MonitorState

/-- The status that the row of `h` has while this goroutine has the order
in hand. -/
def hand (st : MonitorState) (h : String) : Routine → Option StrategyStatus
  | .begin ctx s =>
      if s.commitmentHash = h ∧ st.monitors.cancelled ctx = false then some .PENDING else none
  | .select l | .evaluate l | .write l _ | .sent l _ =>
      if l.hash = h ∧ st.monitors.cancelled l.ctx = false then some .PENDING else none
  | .wrote l _ =>
      if l.hash = h ∧ st.monitors.cancelled l.ctx = false then some .EXECUTING else none
  | .trigger s _ | .posted s | .rollback s =>
      if s.commitmentHash = h then some .EXECUTING else none
  | .reset _ rows =>
      if h ∈ rows.map PendingStrategy.commitmentHash then some .EXECUTING else none
  | .resume s | .registered s => if s.commitmentHash = h then some .PENDING else none
  | .startAll _ rows =>
      if h ∈ rows.map PendingStrategy.commitmentHash then some .PENDING else none
  | _ => none

def hands (st : MonitorState) (h : String) : List StrategyStatus :=
  st.routines.filterMap (st.hand h)

/-- Before `ListPending`; nobody else runs. -/
def Rehydrating (st : MonitorState) : Prop :=
  ∃ j, st.routines = [j] ∧ j.sweep = some true

/-- A monitor that writes does so for an open order, and lives. -/
def Sound (st : MonitorState) (h : String) : Routine → Prop
  | .write l v => l.hash = h → v = .met
  | .sent l v | .wrote l v => l.hash = h → v = .met ∧ st.monitors.cancelled l.ctx = false
  | _ => True

/-- The order of `h`, with its row at `status`, is in one hand, or in none
and does not wait for a monitor. -/
def Held (st : MonitorState) (h : String) (status : StrategyStatus) : Prop :=
  st.hands h = [status] ∨ st.hands h = [] ∧ status ≠ .PENDING

/-- It is held, or will be once the service has rehydrated. -/
structure Cared (st : MonitorState) (h : String) (status : StrategyStatus) : Prop where
  held : st.Held h status ∨ st.Rehydrating ∧ st.hands h = []
  sound : ∀ j ∈ st.routines, st.Sound h j

/-- So is every open order of `h`. -/
def Tended (h : String) (st : MonitorState) : Prop :=
  ∀ s, st.strategies.find h = some s → s.Open st.now → st.Cared h s.status

/-- One sweeper; its lists repeat no hash; nobody heard of the end of a
hash of `K`. -/
structure Swept (K : Set String) (st : MonitorState) : Prop where
  stage : st.routines.filterMap Routine.sweep = [false]
    ∨ st.Rehydrating ∧ st.booted = false
  distinct : ∀ j ∈ st.routines, j.listed.Nodup
  unheard : ∀ j ∈ st.routines, ∀ c ∈ K, j.lets ≠ some c

variable {hasRegistry : Bool} {st st' : MonitorState} {i : ℕ} {j k : Routine} {h c : String}
  {K : Set String} {s : PendingStrategy} {status : StrategyStatus}

-- ==================================================================== the sweeper

/-- After the start-up the sweeper is in its loop, and nobody else
sweeps. -/
theorem Swept.settled (hw : Swept K st) (hb : st.booted = true) :
    st.routines.filterMap Routine.sweep = [false] := by
  refine hw.stage.resolve_right ?_
  intro hstage
  rw [hb] at hstage
  cases hstage.2

/-- While the service rehydrates, a goroutine is the one that does it. -/
theorem Rehydrating.sole (hr : st.Rehydrating) (hj : st.routines[i]? = some j) :
    st.routines = [j] ∧ i = 0 ∧ j.sweep = some true := by
  obtain ⟨j₀, hroutines, hsweep⟩ := hr
  rw [hroutines] at hj
  cases i with
  | zero =>
      cases hj
      exact ⟨hroutines, rfl, hsweep⟩
  | succ i => cases hj

/-- Where somebody else runs, the service has rehydrated. -/
theorem Swept.settled_of (hw : Swept K st) (hj : st.routines[i]? = some j)
    (hsweep : j.sweep ≠ some true) : st.routines.filterMap Routine.sweep = [false] :=
  hw.stage.resolve_right fun hstage => hsweep (hstage.1.sole hj).2.2

/-- The start-up goes on to its next call. -/
theorem Rehydrating.put (hr : st.Rehydrating) (hj : st.routines[i]? = some j)
    (hk : k.sweep = some true) : (st.put i k).Rehydrating := by
  obtain ⟨hroutines, rfl, -⟩ := hr.sole hj
  refine ⟨k, ?_, hk⟩
  show st.routines.set 0 k = [k]
  rw [hroutines]
  rfl

/-- A goroutine that goes on with a list of distinct hashes leaves all lists
distinct. -/
theorem listed_put (hw : Swept K st) (hk : k.listed.Nodup) :
    ∀ j ∈ (st.put i k).routines, j.listed.Nodup := by
  intro j hj
  rcases mem_put hj with hold | rfl
  · exact hw.distinct j hold
  · exact hk

/-- A goroutine that goes on to something that lets no hash of `K` go leaves
that true of all. -/
theorem lets_put (hw : Swept K st) (hk : ∀ c ∈ K, k.lets ≠ some c) :
    ∀ j ∈ (st.put i k).routines, ∀ c ∈ K, j.lets ≠ some c := by
  intro j hj
  rcases mem_put hj with hold | rfl
  · exact hw.unheard j hold
  · exact hk

/-- A goroutine goes on at the same stage. -/
theorem Swept.put (hw : Swept K st) (hj : st.routines[i]? = some j) (hsweep : k.sweep = j.sweep)
    (hlisted : k.listed.Nodup) (hlets : ∀ c ∈ K, k.lets ≠ some c) : Swept K (st.put i k) := by
  refine ⟨?_, listed_put hw hlisted, lets_put hw hlets⟩
  rcases hw.stage with hstage | ⟨hstage, hb⟩
  · exact Or.inl ((filterMap_set_same hj hsweep).trans hstage)
  · exact Or.inr ⟨hstage.put hj (hsweep.trans (hstage.sole hj).2.2), hb⟩

/-- A goroutine at a stage of the sweeper is the sweeper. -/
theorem Swept.sole (hw : Swept K st) (hj : st.routines[i]? = some j) (hsweep : j.sweep.isSome) :
    st.routines.filterMap Routine.sweep = j.sweep.toList := by
  obtain ⟨b, hb⟩ := Option.isSome_iff_exists.1 hsweep
  rcases hw.stage with hstage | ⟨hstage, -⟩
  · rw [hb, hstage, filterMap_eq_of_holds (List.mem_of_getElem? hj) hb hstage]
    rfl
  · rw [(hstage.sole hj).1, List.filterMap_cons, hb]
    rfl

/-- The sweeper goes on, past `ListPending`. -/
theorem Swept.settle (hw : Swept K st) (hj : st.routines[i]? = some j) (hsweep : j.sweep.isSome)
    (hk : k.sweep = some false) (hlisted : k.listed.Nodup) (hlets : ∀ c ∈ K, k.lets ≠ some c) :
    Swept K (st.put i k) := by
  refine ⟨Or.inl ?_, listed_put hw hlisted, lets_put hw hlets⟩
  show (st.routines.set i k).filterMap Routine.sweep = _
  rw [filterMap_set_sole hj (hw.sole hj hsweep), hk]
  rfl

/-- A new goroutine that does not sweep changes nothing for the sweeper. -/
theorem Swept.spawn (hw : Swept K st) (hstage : st.routines.filterMap Routine.sweep = [false])
    (hk : k.sweep = none) (hlisted : k.listed.Nodup) (hlets : ∀ c ∈ K, k.lets ≠ some c) :
    Swept K (st.spawn k) := by
  refine ⟨Or.inl ?_, ?_, ?_⟩
  · show (st.routines ++ [k]).filterMap Routine.sweep = _
    rw [List.filterMap_append, hstage, List.filterMap_cons, hk]
    rfl
  · intro j hj
    rcases mem_spawn hj with hold | rfl
    · exact hw.distinct j hold
    · exact hlisted
  · intro j hj
    rcases mem_spawn hj with hold | rfl
    · exact hw.unheard j hold
    · exact hlets

/-- What does not touch the goroutines. -/
theorem Swept.same (hw : Swept K st) (hr : st'.routines = st.routines)
    (hb : st'.booted = st.booted) : Swept K st' := by
  refine ⟨?_, ?_, ?_⟩
  · unfold Rehydrating
    rw [hr, hb]
    exact hw.stage
  · rw [hr]
    exact hw.distinct
  · rw [hr]
    exact hw.unheard

/-- Nor does a new monitor. -/
theorem Swept.start (hw : Swept K st) (hstage : st.routines.filterMap Routine.sweep = [false])
    (s : PendingStrategy) : Swept K (st.start s) := by
  unfold MonitorState.start
  cases st.monitors.stopChans s.commitmentHash with
  | some tm => exact hw
  | none =>
      have hspawn : Swept K (st.spawn (.begin st.monitors.goroutines.length s)) :=
        hw.spawn hstage rfl List.nodup_nil (by simp [Routine.lets])
      exact hspawn.same rfl rfl

/-- The start-up ends, and its goroutine goes on as the sweeper. -/
theorem Swept.boot (hw : Swept K st) (hj : st.routines[i]? = some j) (hsweep : j.sweep.isSome) :
    Swept K (st.boot i) := by
  have hended : (st.put i .ended).routines.filterMap Routine.sweep = [] :=
    filterMap_set_sole hj (hw.sole hj hsweep)
  refine ⟨Or.inl ?_, ?_, ?_⟩
  · show ((st.put i .ended).routines ++ [_]).filterMap Routine.sweep = _
    rw [List.filterMap_append, hended]
    rfl
  · intro k hk
    rcases mem_spawn hk with hold | rfl
    · exact listed_put (k := .ended) hw List.nodup_nil k hold
    · exact List.nodup_nil
  · intro k hk
    rcases mem_spawn hk with hold | rfl
    · exact lets_put (k := .ended) hw (by simp [Routine.lets]) k hold
    · simp [Routine.lets]

/-- While the process is up, it has its sweeper. -/
def Sweeps (K : Set String) (st : MonitorState) : Prop := st.crashed = false → Swept K st

/-- After a crash nothing is asked. -/
theorem Sweeps.crash : Sweeps K st.crash := by
  intro hup
  cases hup

/-- A goroutine that slices a hash goes on, or the process crashes. -/
theorem Swept.slice {next : MonitorState} (hn : Swept K next) : Sweeps K (st.slice c next) := by
  rcases slice_cases st c next with ⟨-, hs⟩ | hs
  · rw [hs]
    exact fun _ => hn
  · rw [hs]
    exact Sweeps.crash

/-- A monitor whose write failed goes on, or the process crashes in the
message it logs. -/
theorem Swept.updateFailed (hw : Swept K st) (hj : st.routines[i]? = some j)
    (hsweep : j.sweep = none) (l : Loop) (v : Verdict) : Sweeps K (st.updateFailed i l v) := by
  cases v with
  | expired => exact Swept.slice (hw.put hj hsweep.symm List.nodup_nil (by simp [Routine.lets]))
  | met => exact Swept.slice (hw.put hj hsweep.symm List.nodup_nil (by simp [Routine.lets]))

/-- A goroutine that goes on at the same stage of sweeping leaves the stages
as they are. -/
theorem sweep_put (hj : st.routines[i]? = some j) (hsweep : k.sweep = j.sweep)
    (hstage : st.routines.filterMap Routine.sweep = [false]) :
    (st.put i k).routines.filterMap Routine.sweep = [false] :=
  (filterMap_set_same hj hsweep).trans hstage

/-- The rows of a query have distinct hashes, as the table has. -/
theorem nodup_rows (t : StrategyTable) (p : PendingStrategy → Bool) :
    ((t.rows.filter p).map PendingStrategy.commitmentHash).Nodup :=
  (List.Sublist.map _ List.filter_sublist).nodup t.unique

/-- What a goroutine's own step keeps. -/
theorem Swept.run {fault : Fault} {pairPrice : PairPrice} {reply : Option ℕ} (hw : Swept K st)
    (hj : st.routines[i]? = some j)
    (hrun : st.run hasRegistry i fault pairPrice reply j = some st') : Sweeps K st' := by
  have hmem : j ∈ st.routines := List.mem_of_getElem? hj
  -- a goroutine that lists nothing and lets nothing go
  have plain : ∀ {k : Routine}, k.sweep = j.sweep → k.listed = [] → k.lets = none →
      Swept K (st.put i k) := by
    intro k hsweep hlisted hlets
    refine hw.put hj hsweep ?_ ?_
    · rw [hlisted]
      exact List.nodup_nil
    · rw [hlets]
      simp
  cases ran_of_run hrun with
  | begun | ticked | unmet | sent | stranded | woken | slept => exact fun _ => plain rfl rfl rfl
  | unjudged | judged | answered | rejected => exact Swept.slice (plain rfl rfl rfl)
  | cancelled l v | unwritten l v => exact hw.updateFailed hj rfl l v
  | wrote l v t hu => exact fun _ => (plain (k := .wrote l v) rfl rfl rfl).same rfl rfl
  | expired l => exact fun _ => (plain (k := .select l) rfl rfl rfl).same rfl rfl
  | met l =>
      have hstage := sweep_put (k := .select l) hj rfl (hw.settled_of hj (by simp [Routine.sweep]))
      have hput : Swept K (st.put i (.select l)) := plain rfl rfl rfl
      have hspawn : Swept K ((st.put i (.select l)).spawn (.trigger l.strategy l.ctx)) :=
        hput.spawn hstage rfl List.nodup_nil (by simp [Routine.lets])
      exact fun _ => hspawn.same rfl rfl
  | posted s sender => exact fun _ => (plain (k := .posted s) rfl rfl rfl).same rfl rfl
  | rolledBack s t hu =>
      exact fun _ => (plain (k := .resume { s with status := .PENDING }) rfl rfl rfl).same rfl rfl
  | resumed s | registered s =>
      have hstage := sweep_put (k := .ended) hj rfl (hw.settled_of hj (by simp [Routine.sweep]))
      have hput : Swept K (st.put i .ended) := plain rfl rfl rfl
      exact fun _ => hput.start hstage s
  | noneStuck w | notReset w =>
      cases w with
      | rehydrate => exact fun _ => plain rfl rfl rfl
      | periodic ticker => exact fun _ => plain rfl rfl rfl
  | someStuck w stuck hu =>
      obtain ⟨-, rfl⟩ := query_eq_ok.1 hu
      exact fun _ => hw.put hj (by cases w <;> rfl) (nodup_rows _ _) (by simp [Routine.lets])
  | rehydrated stuck t hu => exact fun _ => (plain (k := .list) rfl rfl rfl).same rfl rfl
  | swept ticker stuck t hu =>
      have hput : Swept K (st.put i (.startAll (.periodic ticker)
          (stuck.map fun s => { s with status := .PENDING }))) := by
        refine hw.put hj rfl ?_ (by simp [Routine.lets])
        show ((stuck.map _).map _).Nodup
        rw [List.map_map]
        exact hw.distinct _ hmem
      exact fun _ => hput.same rfl rfl
  | unlisted => exact fun _ => hw.boot hj rfl
  | listed rows hu =>
      obtain ⟨-, rfl⟩ := query_eq_ok.1 hu
      exact fun _ => hw.settle hj rfl rfl (nodup_rows _ _) (by simp [Routine.lets])
  | started w s rest =>
      have hstage := sweep_put (k := .startAll w rest) hj rfl
        (hw.settled_of hj (by simp [Routine.sweep]))
      have hput : Swept K (st.put i (.startAll w rest)) := by
        refine hw.put hj rfl ?_ (by simp [Routine.lets])
        exact (List.nodup_cons.1 (hw.distinct _ hmem)).2
      exact fun _ => hput.start hstage s
  | booted => exact fun _ => hw.boot hj rfl
  | stoppedFirst c =>
      have hput : Swept K (st.put i (.finish c false)) :=
        hw.put hj rfl List.nodup_nil (hw.unheard (.stopFirst c) hmem)
      exact fun _ => hput.same rfl rfl
  | marked c recovers t hu =>
      have hput : Swept K (st.put i (.finished c)) :=
        hw.put hj rfl List.nodup_nil (hw.unheard (.finish c recovers) hmem)
      exact fun _ => hput.same rfl rfl
  | unmarked c recovers hsize =>
      exact fun _ => hw.put hj rfl List.nodup_nil (hw.unheard (.finish c recovers) hmem)
  | recovered c hsize => exact fun _ => plain rfl rfl rfl
  | panicked c hsize => exact Sweeps.crash
  | stopped c => exact fun _ => (plain (k := .ended) rfl rfl rfl).same rfl rfl

-- ==================================================================== the hands

section Hands

variable {x y : StrategyStatus} {l : Loop}

/-- What a goroutine has in hand depends on the cancelled contexts only. -/
theorem hand_congr (hc : st'.monitors.cancelled = st.monitors.cancelled) :
    st'.hand h = st.hand h := by
  funext j
  cases j <;> simp only [hand, hc]

/-- The hands depend on the goroutines and the cancelled contexts only. -/
theorem hands_congr (hr : st'.routines = st.routines)
    (hc : st'.monitors.cancelled = st.monitors.cancelled) : st'.hands h = st.hands h := by
  unfold hands
  rw [hr, hand_congr hc]

/-- A goroutine that goes on with the same thing in hand leaves the hands as
they are. -/
theorem hands_put (hj : st.routines[i]? = some j) (hk : st.hand h k = st.hand h j) :
    (st.put i k).hands h = st.hands h :=
  filterMap_set_same hj hk

/-- What a goroutine holds of an order is all there is. -/
theorem Held.sole (hh : st.Held h status) (hj : j ∈ st.routines) (hx : st.hand h j = some x) :
    x = status ∧ st.hands h = [x] := by
  rcases hh with hone | ⟨hnone, -⟩
  · obtain rfl := filterMap_eq_of_holds hj hx hone
    exact ⟨rfl, hone⟩
  · have hnobody := List.filterMap_eq_nil_iff.1 hnone j hj
    rw [hx] at hnobody
    cases hnobody

/-- The only goroutine that has the hash in hand goes on: its new hand is
the only one. -/
theorem Held.hands_move (hh : st.Held h status) (hj : st.routines[i]? = some j)
    (hx : st.hand h j = some x) : (st.put i k).hands h = (st.hand h k).toList := by
  have hsole : st.routines.filterMap (st.hand h) = (st.hand h j).toList := by
    rw [hx]
    exact (hh.sole (List.mem_of_getElem? hj) hx).2
  exact filterMap_set_sole hj hsole

/-- It goes on with what it held. -/
theorem Held.put (hh : st.Held h status) (hj : st.routines[i]? = some j)
    (hk : st.hand h k = st.hand h j) : (st.put i k).Held h status := by
  unfold Held
  rw [hands_put hj hk]
  exact hh

/-- It lets go of an order that is not waiting for a monitor. -/
theorem Held.release (hh : st.Held h status) (hj : st.routines[i]? = some j)
    (hk : st.hand h k = none) (hx : st.hand h j ≠ some .PENDING) : (st.put i k).Held h status := by
  cases hold : st.hand h j with
  | none => exact hh.put hj (hk.trans hold.symm)
  | some x =>
      obtain ⟨rfl, -⟩ := hh.sole (List.mem_of_getElem? hj) hold
      refine Or.inr ⟨?_, ?_⟩
      · rw [hh.hands_move hj hold, hk]
        rfl
      · intro hpending
        rw [hold, hpending] at hx
        exact hx rfl

/-- It goes on with another status. -/
theorem Held.change (hh : st.Held h status) (hj : st.routines[i]? = some j)
    (hx : st.hand h j = some x) (hk : st.hand h k = some y) : (st.put i k).Held h y := by
  refine Or.inl ?_
  rw [hh.hands_move hj hx, hk]
  rfl

/-- A new goroutine adds its hand. -/
theorem hands_spawn : (st.spawn k).hands h = st.hands h ++ (st.hand h k).toList := by
  show (st.routines ++ [k]).filterMap (st.hand h) = _
  rw [List.filterMap_append, List.filterMap_cons]
  cases st.hand h k <;> rfl

-- ------------------------------------------------------------------------ starts

/-- The monitor of another hash adds none. -/
theorem hands_start_other (hne : s.commitmentHash ≠ h) : (st.start s).hands h = st.hands h := by
  unfold MonitorState.start
  cases hentry : st.monitors.stopChans s.commitmentHash with
  | some tm => rfl
  | none =>
      have hsame : (st.monitors.startMonitoring s).cancelled = st.monitors.cancelled :=
        Monitors.startMonitoring_cancelled s st.monitors
      have hspawn : (st.spawn (.begin st.monitors.goroutines.length s)).hands h = st.hands h := by
        rw [hands_spawn]
        simp [hand, hne]
      rw [← hspawn]
      exact hands_congr rfl hsame

/-- Whose order nobody holds has no entry in the map. -/
theorem Tallied.untracked (ht : st.Tallied) (hnone : st.hands h = []) :
    st.monitors.stopChans h = none := by
  by_contra hentry
  obtain ⟨tm, htm⟩ := Option.ne_none_iff_exists'.1 hentry
  obtain ⟨halive, n, j, hj, hm⟩ := ht.lives h tm htm
  have hnobody := List.filterMap_eq_nil_iff.1 hnone j (List.mem_of_getElem? hj)
  cases j with
  | begin ctx s =>
      cases hm
      simp [hand, halive] at hnobody
  | select l | evaluate l | write l v | sent l v | wrote l v =>
      obtain ⟨hctx, hhash⟩ := Prod.mk.inj (Option.some.inj hm)
      simp [hand, hctx, hhash, halive] at hnobody
  | _ => cases hm

/-- A start takes an order that nobody holds. -/
theorem Tallied.hands_start (ht : st.Tallied) (hs : s.commitmentHash = h)
    (hnone : st.hands h = []) : (st.start s).hands h = [.PENDING] := by
  have huntracked := ht.untracked hnone
  rw [← hs] at huntracked
  have hfresh : st.monitors.cancelled st.monitors.goroutines.length = false := by
    by_contra hdead
    rw [Bool.not_eq_false] at hdead
    exact absurd (ht.spent _ hdead) (Nat.lt_irrefl _)
  have hspawn : (st.spawn (.begin st.monitors.goroutines.length s)).hands h = [.PENDING] := by
    rw [hands_spawn, hnone]
    simp [hand, hs, hfresh]
  unfold MonitorState.start
  rw [huntracked, ← hspawn]
  exact hands_congr rfl (Monitors.startMonitoring_cancelled s st.monitors)

-- ------------------------------------------------------------------------- stops

/-- A stop of another hash cancels none of ours. -/
theorem Tallied.alive_stop (ht : st.Tallied) (hne : h ≠ c) {n ctx : ℕ} (hw : st.Watches n ctx h) :
    (st.stop c).monitors.cancelled ctx = st.monitors.cancelled ctx := by
  show (st.monitors.stopMonitoring c).cancelled ctx = _
  unfold Monitors.stopMonitoring
  cases hentry : st.monitors.stopChans c with
  | none => rfl
  | some tm =>
      obtain ⟨-, n', hw'⟩ := ht.lives c tm hentry
      refine Function.update_of_ne ?_ _ _
      rintro rfl
      exact hne (ht.own n n' _ h c hw hw').2

/-- Stopping the monitor of another hash takes nothing out of a hand. -/
theorem Tallied.hand_stop (ht : st.Tallied) (hne : h ≠ c) (hj : j ∈ st.routines) :
    (st.stop c).hand h j = st.hand h j := by
  obtain ⟨n, hn⟩ := List.getElem?_of_mem hj
  have hsame : ∀ {ctx : ℕ}, j.monitor = some (ctx, h) →
      (st.stop c).monitors.cancelled ctx = st.monitors.cancelled ctx :=
    fun hm => ht.alive_stop hne ⟨j, hn, hm⟩
  cases j with
  | begin ctx s =>
      by_cases hs : s.commitmentHash = h
      · simp only [hand, hs, hsame (congrArg some (Prod.ext rfl hs))]
      · simp [hand, hs]
  | select l | evaluate l | write l v | sent l v | wrote l v =>
      by_cases hs : l.hash = h
      · simp only [hand, hs, hsame (congrArg some (Prod.ext rfl hs))]
      · simp [hand, hs]
  | _ => rfl

/-- Nor does it change the hands together. -/
theorem Tallied.hands_stop (ht : st.Tallied) (hne : h ≠ c) : (st.stop c).hands h = st.hands h :=
  List.filterMap_congr fun _ hj => ht.hand_stop hne hj

end Hands

-- ================================================================ what is written

/-- The monitors of `h` that write do so for an open order, and live. -/
def Sounds (st : MonitorState) (h : String) : Prop := ∀ j ∈ st.routines, st.Sound h j

/-- Whether a write on its way is sound depends on the cancelled contexts
only. -/
theorem sound_congr (hc : st'.monitors.cancelled = st.monitors.cancelled) :
    st'.Sound h j ↔ st.Sound h j := by
  cases j <;> simp only [Sound, hc]

/-- A step that leaves goroutines and contexts alone leaves them sound. -/
theorem Sounds.same (hs : st.Sounds h) (hr : st'.routines = st.routines)
    (hc : st'.monitors.cancelled = st.monitors.cancelled) : st'.Sounds h := by
  intro j hj
  rw [hr] at hj
  exact (sound_congr hc).2 (hs j hj)

/-- A goroutine goes on to something sound. -/
theorem Sounds.put (hs : st.Sounds h) (hk : st.Sound h k) : (st.put i k).Sounds h := by
  intro j hj
  rcases mem_put hj with hold | rfl
  · exact (sound_congr rfl).2 (hs j hold)
  · exact (sound_congr rfl).2 hk

/-- A sound goroutine is added. -/
theorem Sounds.spawn (hs : st.Sounds h) (hk : st.Sound h k) : (st.spawn k).Sounds h := by
  intro j hj
  rcases mem_spawn hj with hold | rfl
  · exact (sound_congr rfl).2 (hs j hold)
  · exact (sound_congr rfl).2 hk

/-- A monitor is sound from its start: it is before its first look. -/
theorem Sounds.start (hs : st.Sounds h) (s : PendingStrategy) : (st.start s).Sounds h := by
  unfold MonitorState.start
  cases st.monitors.stopChans s.commitmentHash with
  | some tm => exact hs
  | none =>
      have hspawn : (st.spawn (.begin st.monitors.goroutines.length s)).Sounds h :=
        hs.spawn trivial
      exact hspawn.same rfl (Monitors.startMonitoring_cancelled s st.monitors)

/-- Stopping the monitor of another hash leaves the goroutines of `h`
sound. -/
theorem Sounds.stop (hs : st.Sounds h) (ht : st.Tallied) (hne : h ≠ c) : (st.stop c).Sounds h := by
  intro j hj
  obtain ⟨n, hn⟩ := List.getElem?_of_mem hj
  have hold := hs j hj
  cases j with
  | write l v => exact hold
  | sent l v | wrote l v =>
      intro hhash
      obtain ⟨hv, halive⟩ := hold hhash
      refine ⟨hv, ?_⟩
      rw [ht.alive_stop hne ⟨_, hn, congrArg some (Prod.ext rfl hhash)⟩]
      exact halive
  | _ => trivial

/-- A monitor finds an order expired only after its expiry. -/
theorem expired_of_judge {now : ℤ} {pairPrice : PairPrice}
    (hjudge : judge hasRegistry s now pairPrice = .ok (some .expired)) :
    0 < s.expiry ∧ s.expiry < now := by
  unfold judge at hjudge
  split at hjudge
  · assumption
  · split at hjudge
    · cases hjudge
    · split at hjudge
      · cases hjudge
      · cases hjudge

/-- What a goroutine carries for `h` expires with the row. -/
theorem Sourced.expiry (hs : st.Sourced) (hj : j ∈ st.routines) {r : PendingStrategy}
    (hr : r ∈ j.carries) (hhash : r.commitmentHash = h) (hrow : st.strategies.find h = some s) :
    r.expiry = s.expiry := by
  obtain ⟨row, hmem, horder⟩ := (hs j hj).rows r hr
  have hkey : row.commitmentHash = h := (hash_of_order horder).trans hhash
  have hfind := Table.find_of_mem hmem
  rw [hkey, hrow, Option.some.injEq] at hfind
  have hexpiry : row.order.expiry = r.order.expiry := congrArg _ horder
  rw [hfind]
  exact hexpiry.symm

-- ================================================================= rehydration

/-- The only goroutine goes on as one that reads or starts rows. -/
theorem tended_of_sole (hr : st'.routines = [k]) (hsound : st'.Sound h k)
    (hk : ∀ s, st'.strategies.find h = some s → st'.hand h k = some s.status
      ∨ st'.hand h k = none ∧ (s.status ≠ .PENDING ∨ k.sweep = some true)) : Tended h st' := by
  have hhands : st'.hands h = (st'.hand h k).toList := by
    unfold hands
    rw [hr, List.filterMap_cons]
    cases st'.hand h k <;> rfl
  intro s hrow _
  refine ⟨?_, ?_⟩
  · unfold Held
    rw [hhands]
    rcases hk s hrow with hone | ⟨hnone, hstatus | hsweep⟩
    · rw [hone]
      exact Or.inl (Or.inl rfl)
    · rw [hnone]
      exact Or.inl (Or.inr ⟨rfl, hstatus⟩)
    · rw [hnone]
      exact Or.inr ⟨⟨k, hr, hsweep⟩, rfl⟩
  · intro j hj
    rw [hr, List.mem_singleton] at hj
    rw [hj]
    exact hsound

/-- The rows of a query are found by their hashes. -/
theorem listed_of_filter {t : StrategyTable} {p : PendingStrategy → Bool}
    (hrow : t.find h = some s) :
    h ∈ (t.rows.filter p).map PendingStrategy.commitmentHash ↔ p s = true := by
  refine ⟨?_, ?_⟩
  · intro hmem
    obtain ⟨r, hr, hkey⟩ := List.mem_map.1 hmem
    obtain ⟨hrows, hp⟩ := List.mem_filter.1 hr
    have hfind := Table.find_of_mem hrows
    rw [hkey, hrow, Option.some.injEq] at hfind
    rw [hfind]
    exact hp
  · intro hp
    exact List.mem_map.2 ⟨s, List.mem_filter.2 ⟨Table.mem_of_find hrow, hp⟩,
      Table.key_of_find hrow⟩

/-- `FindStuck` lists a hash exactly if its row is EXECUTING and old
enough. -/
theorem listed_of_findStuck {fault : Fault} {now olderThan : ℤ} {t : StrategyTable}
    {stuck : List PendingStrategy}
    (hu : StrategyRepo.findStuck fault now olderThan t = .ok stuck) (hrow : t.find h = some s) :
    h ∈ stuck.map PendingStrategy.commitmentHash
      ↔ s.status = .EXECUTING ∧ (olderThan ≤ 0 ∨ s.updatedAt < now - olderThan) := by
  obtain ⟨-, rfl⟩ := query_eq_ok.1 hu
  rw [listed_of_filter hrow]
  simp

/-- The steps up to `ListPending`, if it does not fail. -/
theorem Tended.rehydrate {fault : Fault} {pairPrice : PairPrice} {reply : Option ℕ}
    (hr : st.Rehydrating) (hj : st.routines[i]? = some j) (hlist : j = .list → fault = none)
    (hrun : st.run hasRegistry i fault pairPrice reply j = some st') : Tended h st' := by
  obtain ⟨hroutines, rfl, hsweep⟩ := hr.sole hj
  have hput : ∀ k, (st.put 0 k).routines = [k] := by
    intro k
    show st.routines.set 0 k = [k]
    rw [hroutines]
    rfl
  by_cases hlisting : j = .list
  · -- rows that are not PENDING need no monitor
    subst hlisting
    rw [hlist rfl] at hrun
    cases hrun
    refine tended_of_sole (hput _) trivial ?_
    intro s hrow
    have hmem := listed_of_filter (p := fun s => s.status = .PENDING) hrow
    by_cases hpending : s.status = .PENDING
    · refine Or.inl ?_
      rw [hpending]
      exact if_pos (hmem.2 (by simp [hpending]))
    · refine Or.inr ⟨if_neg ?_, Or.inl hpending⟩
      intro hin
      exact hpending (by simpa using hmem.1 hin)
  · cases ran_of_run hrun with
    | noneStuck w | notReset w =>
        cases w with
        | rehydrate => exact tended_of_sole (hput _) trivial fun s _ => Or.inr ⟨rfl, Or.inr rfl⟩
        | periodic ticker => cases hsweep
    | someStuck w stuck hu =>
        cases w with
        | rehydrate =>
            refine tended_of_sole (hput _) trivial ?_
            intro s hrow
            by_cases hin : h ∈ stuck.map PendingStrategy.commitmentHash
            · refine Or.inl ?_
              rw [((listed_of_findStuck hu hrow).1 hin).1]
              exact if_pos hin
            · exact Or.inr ⟨if_neg hin, Or.inr rfl⟩
        | periodic ticker => cases hsweep
    | rehydrated stuck t hu =>
        exact tended_of_sole (hput _) trivial fun s _ => Or.inr ⟨rfl, Or.inr rfl⟩
    | unlisted | listed => exact absurd rfl hlisting
    | _ => cases hsweep

-- =================================================================== one step

/-- A trigger is over, and its row is settled, before the row is stuck. -/
def Prompt (st : MonitorState) (h : String) : Prop :=
  ∀ s, st.strategies.find h = some s → (∃ j ∈ st.routines, j.Sends h) →
    st.now - stuckExecutingThreshold ≤ s.updatedAt

/-- If the process is still up, the slice of the hash has gone well. -/
theorem slice_up {next : MonitorState} (hup : (st.slice c next).crashed = false) :
    st.slice c next = next := by
  rcases slice_cases st c next with ⟨-, hs⟩ | hs
  · exact hs
  · rw [hs] at hup
    cases hup

/-- The row of `h` after an update of the row of `c`. -/
theorem row_of_update {fault : Fault} {now : ℤ} {t t' : StrategyTable} {s' : PendingStrategy}
    (hu : StrategyRepo.updateStatus fault now c status t = .ok t') (hrow : t'.find h = some s') :
    h = c ∧ (∃ s, t.find h = some s ∧ s.expiry = s'.expiry ∧ s'.status = status)
      ∨ h ≠ c ∧ t.find h = some s' := by
  rw [StrategyRepo.updateStatus_find hu] at hrow
  by_cases heq : h = c
  · rw [if_pos heq, ← heq] at hrow
    obtain ⟨s, hs, rfl⟩ := Option.map_eq_some_iff.1 hrow
    exact Or.inl ⟨heq, s, hs, rfl, rfl⟩
  · rw [if_neg heq] at hrow
    exact Or.inr ⟨heq, hrow⟩

/-- A row after `ResetStuck` is one that was listed and is PENDING again, or
one that is as it was. -/
theorem row_of_reset {fault : Fault} {now : ℤ} {t t' : StrategyTable} {s' : PendingStrategy}
    {hashes : List String} (hu : StrategyRepo.resetStuck fault now hashes t = .ok t')
    (hrow : t'.find h = some s') :
    h ∈ hashes ∧ (∃ s, t.find h = some s ∧ s.expiry = s'.expiry ∧ s'.status = .PENDING)
      ∨ h ∉ hashes ∧ t.find h = some s' := by
  obtain ⟨-, rfl⟩ := query_eq_ok.1 hu
  rw [Table.find_updateWhere, Option.map_eq_some_iff] at hrow
  obtain ⟨s, hs, rfl⟩ := hrow
  have hkey : s.commitmentHash = h := Table.key_of_find hs
  by_cases hin : h ∈ hashes
  · refine Or.inl ⟨hin, s, hs, ?_⟩
    rw [if_pos (by simpa [hkey] using hin)]
    exact ⟨rfl, rfl⟩
  · refine Or.inr ⟨hin, ?_⟩
    rw [if_neg (by simpa [hkey] using hin)]
    exact hs

/-- A stop takes no order into a hand. -/
theorem hand_stop_none (hnone : st.hand h j = none) : (st.stop c).hand h j = none := by
  have hdead : ∀ {ctx}, (st.stop c).monitors.cancelled ctx = false →
      st.monitors.cancelled ctx = false := Monitors.stopMonitoring_alive
  cases j with
  | begin ctx s =>
      refine if_neg fun hhand => ?_
      simp [hand, hhand.1, hdead hhand.2] at hnone
  | select l | evaluate l | write l v | sent l v | wrote l v =>
      refine if_neg fun hhand => ?_
      simp [hand, hhand.1, hdead hhand.2] at hnone
  | _ => exact hnone

/-- The monitor that stops itself lets go of its order, which nobody else
has in hand. -/
theorem hands_stop_self {x : StrategyStatus} (hone : st.hands h = [x])
    (hj : st.routines[i]? = some j) (hx : st.hand h j = some x)
    (hdead : (st.stop h).hand h j = none) : (st.stop h).hands h = [] := by
  refine List.filterMap_eq_nil_iff.2 fun k hk => ?_
  cases hold : st.hand h k with
  | none => exact hand_stop_none hold
  | some y =>
      obtain ⟨n, hn⟩ := List.getElem?_of_mem hk
      obtain rfl := holder_unique hj hx hn hold hone
      cases hj.symm.trans hn
      exact hdead

/-- What neither moves a goroutine nor writes a row. -/
theorem Tended.same (hc : Tended h st) (hr : st'.routines = st.routines)
    (hcancelled : st'.monitors.cancelled = st.monitors.cancelled)
    (hrows : st'.strategies = st.strategies) (hnow : st.now ≤ st'.now) : Tended h st' := by
  intro s hrow hopen
  rw [hrows] at hrow
  have hbefore : s.Open st.now := by
    intro hexpired
    refine hopen ⟨hexpired.1, lt_of_lt_of_le hexpired.2 ?_⟩
    exact Int.ediv_le_ediv (by decide) hnow
  obtain ⟨hheld, hsound⟩ := hc s hrow hbefore
  refine ⟨?_, Sounds.same hsound hr hcancelled⟩
  unfold Held Rehydrating
  rw [hands_congr hr hcancelled, hr]
  exact hheld

/-- A goroutine without the hash in hand leaves the order held as it was. -/
theorem Held.spawn (hh : st.Held h status) (hk : st.hand h k = none) :
    (st.spawn k).Held h status := by
  unfold Held
  rw [hands_spawn, hk, Option.toList_none, List.append_nil]
  exact hh

/-- The monitor stops itself, and its trigger has the order. -/
theorem Tallied.met {l : Loop} (ht : st.Tallied) (hj : st.routines[i]? = some (.wrote l .met))
    (hheld : st.Held l.hash status) (hsounds : st.Sounds l.hash) :
    (((st.stop l.hash).put i (.select l)).spawn (.trigger l.strategy l.ctx)).Held l.hash status
      ∧ (((st.stop l.hash).put i (.select l)).spawn (.trigger l.strategy l.ctx)).Sounds
        l.hash := by
  have hmem : Routine.wrote l .met ∈ st.routines := List.mem_of_getElem? hj
  obtain ⟨-, halive⟩ := hsounds _ hmem rfl
  have hx : st.hand l.hash (.wrote l .met) = some .EXECUTING := if_pos ⟨rfl, halive⟩
  obtain ⟨hstatus, hone⟩ := hheld.sole hmem hx
  have hdead : (st.stop l.hash).monitors.cancelled l.ctx = true := ht.tracks.dead_of_stop hmem rfl
  have hwrote : (st.stop l.hash).hand l.hash (.wrote l .met) = none := if_neg (by simp [hdead])
  have hselect : (st.stop l.hash).hand l.hash (.select l) = none := if_neg (by simp [hdead])
  have hnobody := hands_stop_self hone hj hx hwrote
  have htrigger : ∀ st : MonitorState, st.hand l.hash (.trigger l.strategy l.ctx)
      = some .EXECUTING := fun _ => if_pos rfl
  have hput : ((st.stop l.hash).put i (.select l)).hands l.hash = [] :=
    (filterMap_set_same hj (hselect.trans hwrote.symm)).trans hnobody
  refine ⟨Or.inl ?_, ?_⟩
  · rw [hands_spawn, hput, htrigger, ← hstatus]
    rfl
  · intro k hk
    rcases mem_spawn hk with hput | rfl
    · obtain ⟨n, hn⟩ := List.getElem?_of_mem hput
      by_cases hni : n = i
      · obtain ⟨hlt, -⟩ := List.getElem?_eq_some_iff.1 hj
        have hget : (st.routines.set i (.select l))[i]? = some (.select l) :=
          List.getElem?_set_self hlt
        rw [hni] at hn
        cases hget.symm.trans hn
        trivial
      · have hn' : st.routines[n]? = some k := (List.getElem?_set_ne (Ne.symm hni)).symm.trans hn
        have hother : st.hand l.hash k = none := by
          cases hhand : st.hand l.hash k with
          | none => rfl
          | some y => exact absurd (holder_unique hn' hhand hj hx hone) hni
        have hsound := hsounds k (List.mem_of_getElem? hn')
        cases k with
        | write l' v => exact hsound
        | sent l' v | wrote l' v =>
            -- it lives, so it would hold the order
            intro hhash
            obtain ⟨-, halive'⟩ := hsound hhash
            simp [hand, hhash, halive'] at hother
        | _ => trivial
    · trivial

/-- No order whose row is stuck is in a hand when the sweeper looks. -/
theorem Swept.idle_of_find {ticker : Ticker} (hw : Swept {h} st)
    (hj : st.routines[i]? = some (.find (.periodic ticker))) (hsounds : st.Sounds h)
    (hprompt : st.Prompt h) (hrow : st.strategies.find h = some s) (hstatus : s.status = .EXECUTING)
    (hold : (stuckExecutingThreshold : ℤ) ≤ 0 ∨ s.updatedAt < st.now - stuckExecutingThreshold)
    (hheld : st.Held h s.status) : st.hands h = [] := by
  refine (hheld.resolve_left fun hone => ?_).1
  have hmem : s.status ∈ st.hands h := by
    rw [hone]
    exact List.mem_singleton_self _
  obtain ⟨k, hk, hhand⟩ := List.mem_filterMap.1 hmem
  rw [hstatus] at hhand
  have hsends : ¬k.Sends h := by
    intro hsends
    have hrecent := hprompt s hrow ⟨k, hk, hsends⟩
    rcases hold with hzero | hstale
    · exact absurd hzero (by decide)
    · exact absurd hstale (not_lt.2 hrecent)
  cases k with
  | begin ctx s' | select l | evaluate l | write l v | sent l v | resume s' | registered s'
    | startAll w rows =>
      simp only [hand] at hhand
      split at hhand
      · cases hhand
      · cases hhand
  | wrote l v =>
      simp only [hand] at hhand
      split at hhand
      · rename_i hmine
        obtain ⟨rfl, -⟩ := hsounds _ hk hmine.1
        exact hsends hmine.1
      · cases hhand
  | trigger s' sender | posted s' | rollback s' =>
      simp only [hand] at hhand
      split at hhand
      · rename_i hmine
        exact hsends hmine
      · cases hhand
  | reset w rows =>
      -- there is one sweeper, and it is about to look
      obtain ⟨n, hn⟩ := List.getElem?_of_mem hk
      have hstage := hw.settled_of hj (by simp [Routine.sweep])
      obtain ⟨b, hb⟩ : ∃ b, (Routine.reset w rows).sweep = some b := by
        cases w with
        | rehydrate => exact ⟨true, rfl⟩
        | periodic t => exact ⟨false, rfl⟩
      have hni := holder_unique hn hb hj rfl hstage
      rw [hni, hj] at hn
      cases hn
  | _ => cases hhand

/-- The steps once the service has rehydrated. -/
theorem Tended.settled {fault : Fault} {pairPrice : PairPrice} {reply : Option ℕ}
    (ht : st.Tallied) (hs : st.Sourced) (hw : Swept {h} st) (hc : Tended h st)
    (hj : st.routines[i]? = some j) (hsweep : j.sweep ≠ some true)
    (hprompt : ∀ ticker, j = .find (.periodic ticker) → st.Prompt h)
    (hrun : st.run hasRegistry i fault pairPrice reply j = some st')
    (hup : st'.crashed = false) : Tended h st' := by
  have hmem : j ∈ st.routines := List.mem_of_getElem? hj
  have hold : ∀ s, st.strategies.find h = some s → s.Open st.now →
      st.Held h s.status ∧ st.Sounds h := by
    intro s hrow hopen
    obtain ⟨hheld, hsound⟩ := hc s hrow hopen
    exact ⟨hheld.resolve_right fun hr => hsweep (hr.1.sole hj).2.2, hsound⟩
  -- a step that leaves the rows as they are
  have kept : ∀ {st' : MonitorState}, st'.strategies = st.strategies → st'.now = st.now →
      (∀ s, st.strategies.find h = some s → s.Open st.now → st.Held h s.status → st.Sounds h →
        st'.Held h s.status ∧ st'.Sounds h) → Tended h st' := by
    intro st' hrows hnow hstep s hrow hopen
    rw [hrows] at hrow
    rw [hnow] at hopen
    obtain ⟨hheld, hsound⟩ := hold s hrow hopen
    obtain ⟨hheld', hsound'⟩ := hstep s hrow hopen hheld hsound
    exact ⟨Or.inl hheld', hsound'⟩
  have plain : ∀ {k : Routine}, st.hand h k = st.hand h j → (st.Sounds h → st.Sound h k) →
      Tended h (st.put i k) := by
    intro k hk hsound
    exact kept rfl rfl fun s _ _ hheld hsounds => ⟨hheld.put hj hk, hsounds.put (hsound hsounds)⟩
  have gone : ∀ {k : Routine}, st.hand h k = none → st.hand h j ≠ some .PENDING →
      st.Sound h k → Tended h (st.put i k) := by
    intro k hk hx hsound
    exact kept rfl rfl fun s _ _ hheld hsounds => ⟨hheld.release hj hk hx, hsounds.put hsound⟩
  -- a start by a goroutine that had only this to do
  have starts : ∀ {k : Routine} {s : PendingStrategy}, k.monitor = j.monitor → st.Sound h k →
      (s.commitmentHash = h → st.hand h j = some .PENDING ∧ st.hand h k = none) →
      (s.commitmentHash ≠ h → st.hand h k = st.hand h j) → Tended h ((st.put i k).start s) := by
    intro k s hm hsound hself hother
    refine kept start_strategies start_now fun r _ _ hheld hsounds => ?_
    refine ⟨?_, (hsounds.put hsound).start s⟩
    by_cases heq : s.commitmentHash = h
    · obtain ⟨hx, hk⟩ := hself heq
      obtain ⟨hstatus, -⟩ := hheld.sole hmem hx
      refine Or.inl ?_
      rw [← hstatus]
      refine (ht.put hj hm).hands_start heq ?_
      rw [hheld.hands_move hj hx, hk]
      rfl
    · unfold Held
      rw [hands_start_other heq, hands_put hj (hother heq)]
      exact hheld
  -- a stop of another hash, and then a move that holds nothing
  have stops : ∀ {k : Routine} {c : String} {status : StrategyStatus}, h ≠ c →
      st.hand h k = none → st.hand h j = none → (∀ st, MonitorState.Sound st h k) →
      st.Held h status → st.Sounds h →
      ((st.stop c).put i k).Held h status ∧ ((st.stop c).put i k).Sounds h := by
    intro k c status hne hk hx hsound hheld hsounds
    have hstop : (st.stop c).Held h status := by
      unfold Held
      rw [ht.hands_stop hne]
      exact hheld
    refine ⟨hstop.put hj ?_, (hsounds.stop ht hne).put (hsound _)⟩
    rw [hand_stop_none hk, hand_stop_none hx]
  cases ran_of_run hrun with
  | begun | ticked | unmet => exact plain rfl fun _ => trivial
  | unjudged l =>
      rw [slice_up hup]
      exact plain rfl fun _ => trivial
  | judged l v hjudge =>
      rw [slice_up hup]
      refine kept rfl rfl fun s hrow hopen hheld hsounds => ?_
      refine ⟨hheld.put hj rfl, hsounds.put ?_⟩
      intro hhash
      cases v with
      | met => rfl
      | expired =>
          -- the order of the row is open, and this is its order
          have hexpiry := hs.expiry hmem List.mem_cons_self hhash hrow
          have hexpired := expired_of_judge hjudge
          rw [hexpiry] at hexpired
          exact absurd hexpired hopen
  | cancelled l v hdead =>
      cases v with
      | met =>
          rw [show st.updateFailed i l .met = _ from slice_up hup]
          exact plain rfl fun _ => trivial
      | expired =>
          rw [show st.updateFailed i l .expired = _ from slice_up hup]
          refine kept rfl rfl fun s _ _ hheld hsounds => ?_
          have hne : l.hash ≠ h := fun hhash => nomatch hsounds _ hmem hhash
          exact ⟨hheld.put hj (by simp [hand, hne]), hsounds.put fun hhash => absurd hhash hne⟩
  | sent l v halive => exact plain rfl fun hsounds hhash => ⟨hsounds _ hmem hhash, halive⟩
  | unwritten l v =>
      cases v with
      | met =>
          rw [show st.updateFailed i l .met = _ from slice_up hup]
          exact plain rfl fun _ => trivial
      | expired =>
          rw [show st.updateFailed i l .expired = _ from slice_up hup]
          refine kept rfl rfl fun s _ _ hheld hsounds => ?_
          have hne : l.hash ≠ h := fun hhash => nomatch (hsounds _ hmem hhash).1
          exact ⟨hheld.put hj (by simp [hand, hne]), hsounds.put fun hhash => absurd hhash hne⟩
  | wrote l v t hu =>
      intro s' hrow' hopen
      rcases row_of_update hu hrow' with ⟨hhash, s, hrow, hexpiry, hstatus⟩ | ⟨hne, hrow⟩
      · unfold PendingStrategy.Open at hopen
        rw [← hexpiry] at hopen
        obtain ⟨hheld, hsounds⟩ := hold s hrow hopen
        obtain ⟨rfl, halive⟩ := hsounds _ hmem hhash.symm
        rw [hstatus]
        exact ⟨Or.inl (hheld.change hj (if_pos ⟨hhash.symm, halive⟩) (if_pos ⟨hhash.symm, halive⟩)),
          hsounds.put fun hh => ⟨rfl, halive⟩⟩
      · obtain ⟨hheld, hsounds⟩ := hold s' hrow hopen
        exact ⟨Or.inl (hheld.put hj (by simp [hand, Ne.symm hne])),
          hsounds.put fun hhash => absurd hhash.symm hne⟩
  | expired l =>
      refine kept rfl rfl fun s _ _ hheld hsounds => ?_
      have hne : l.hash ≠ h := fun hhash => nomatch (hsounds _ hmem hhash).1
      exact stops (Ne.symm hne) (by simp [hand, hne]) (by simp [hand, hne]) (fun _ => trivial) hheld
        hsounds
  | met l =>
      refine kept rfl rfl fun s _ _ hheld hsounds => ?_
      by_cases hhash : l.hash = h
      · -- its own order: the trigger takes it over
        subst hhash
        exact ht.met hj hheld hsounds
      · obtain ⟨hheld', hsounds'⟩ := stops (k := .select l) (Ne.symm hhash) (by simp [hand, hhash])
          (by simp [hand, hhash]) (fun _ => trivial) hheld hsounds
        exact ⟨hheld'.spawn (if_neg hhash), hsounds'.spawn trivial⟩
  | posted s sender =>
      exact (plain (k := .posted s) rfl fun _ => trivial).same rfl rfl rfl (le_refl _)
  | answered s =>
      rw [slice_up hup]
      refine gone rfl ?_ trivial
      simp only [hand]
      split <;> simp
  | rejected s =>
      rw [slice_up hup]
      exact plain rfl fun _ => trivial
  | rolledBack r t hu =>
      intro s' hrow' hopen
      rcases row_of_update hu hrow' with ⟨hhash, s, hrow, hexpiry, hstatus⟩ | ⟨hne, hrow⟩
      · unfold PendingStrategy.Open at hopen
        rw [← hexpiry] at hopen
        obtain ⟨hheld, hsounds⟩ := hold s hrow hopen
        rw [hstatus]
        exact ⟨Or.inl (hheld.change hj (if_pos hhash.symm) (if_pos hhash.symm)),
          hsounds.put trivial⟩
      · obtain ⟨hheld, hsounds⟩ := hold s' hrow hopen
        exact ⟨Or.inl (hheld.put hj (by simp [hand, Ne.symm hne])), hsounds.put trivial⟩
  | stranded s =>
      refine gone rfl ?_ trivial
      simp only [hand]
      split <;> simp
  | resumed s | registered s =>
      refine starts rfl trivial ?_ ?_
      · exact fun heq => ⟨if_pos heq, rfl⟩
      · exact fun hne => (if_neg hne).symm
  | woken | slept => exact plain rfl fun _ => trivial
  | noneStuck w =>
      cases w with
      | rehydrate => exact absurd rfl hsweep
      | periodic ticker => exact plain rfl fun _ => trivial
  | someStuck w stuck hu =>
      cases w with
      | rehydrate => exact absurd rfl hsweep
      | periodic ticker =>
          refine kept rfl rfl fun s hrow hopen hheld hsounds => ?_
          refine ⟨?_, hsounds.put trivial⟩
          by_cases hin : h ∈ stuck.map PendingStrategy.commitmentHash
          · obtain ⟨hstatus, hold⟩ := (listed_of_findStuck hu hrow).1 hin
            have hnobody : st.hands h = [] :=
              hw.idle_of_find hj hsounds (hprompt ticker rfl) hrow hstatus hold hheld
            have hput : (st.put i (.reset (.periodic ticker) stuck)).hands h
                = (st.hand h (.reset (.periodic ticker) stuck)).toList :=
              filterMap_set_sole hj hnobody
            refine Or.inl ?_
            rw [hput, hstatus]
            exact congrArg Option.toList (if_pos hin)
          · exact hheld.put hj (if_neg hin)
  | notReset w stuck =>
      cases w with
      | rehydrate => exact absurd rfl hsweep
      | periodic ticker =>
          refine gone rfl ?_ trivial
          simp only [hand]
          split <;> simp
  | rehydrated | unlisted | listed => exact absurd rfl hsweep
  | swept ticker stuck t hu =>
      have hhashes : (stuck.map fun s => { s with status := .PENDING }).map
          PendingStrategy.commitmentHash = stuck.map PendingStrategy.commitmentHash := by
        rw [List.map_map]
        rfl
      intro s' hrow' hopen
      rcases row_of_reset hu hrow' with ⟨hin, s, hrow, hexpiry, hstatus⟩ | ⟨hnot, hrow⟩
      · unfold PendingStrategy.Open at hopen
        rw [← hexpiry] at hopen
        obtain ⟨hheld, hsounds⟩ := hold s hrow hopen
        rw [hstatus]
        exact ⟨Or.inl (hheld.change hj (if_pos hin) (if_pos (by rw [hhashes]; exact hin))),
          hsounds.put trivial⟩
      · obtain ⟨hheld, hsounds⟩ := hold s' hrow hopen
        refine ⟨Or.inl (hheld.put hj ?_), hsounds.put trivial⟩
        simp only [hand, hhashes, hnot, if_false]
  | started w s rest =>
      have hdistinct : (s.commitmentHash :: rest.map PendingStrategy.commitmentHash).Nodup :=
        hw.distinct _ hmem
      refine starts rfl trivial ?_ ?_
      · rintro rfl
        exact ⟨if_pos List.mem_cons_self, if_neg (List.nodup_cons.1 hdistinct).1⟩
      · intro hne
        simp [hand, Ne.symm hne]
  | booted =>
      refine kept rfl rfl fun s _ _ hheld hsounds => ?_
      have hput : (st.put i .ended).Held h s.status := hheld.put hj (by simp [hand])
      have hended : (st.put i .ended).Sounds h := hsounds.put trivial
      exact ⟨hput.spawn rfl, hended.spawn trivial⟩
  | stoppedFirst c =>
      have hne : h ≠ c := fun heq => hw.unheard _ hmem h rfl (congrArg some heq.symm)
      exact kept rfl rfl fun s _ _ hheld hsounds =>
        stops hne rfl rfl (fun _ => trivial) hheld hsounds
  | marked c recovers t hu =>
      have hne : h ≠ c := fun heq => hw.unheard _ hmem h rfl (congrArg some heq.symm)
      intro s' hrow' hopen
      rcases row_of_update hu hrow' with ⟨hhash, -⟩ | ⟨-, hrow⟩
      · exact absurd hhash hne
      · obtain ⟨hheld, hsounds⟩ := hold s' hrow hopen
        exact ⟨Or.inl (hheld.put hj rfl), hsounds.put trivial⟩
  | unmarked | recovered => exact plain rfl fun _ => trivial
  | panicked c hsize => cases hup
  | stopped c =>
      have hne : h ≠ c := fun heq => hw.unheard _ hmem h rfl (congrArg some heq.symm)
      exact kept rfl rfl fun s _ _ hheld hsounds =>
        stops hne rfl rfl (fun _ => trivial) hheld hsounds

-- ===================================================================== the runs

/-- Nobody hears of the end of `h`, the list of the start-up comes, and
triggers are over before a sweep looks. -/
def Regular (h : String) (st : MonitorState) : MonitorStep → Prop
  | .event topic => hexHash topic ≠ h
  | .callback c => c ≠ h
  | .run i fault _ _ =>
      (st.routines[i]? = some .list → fault = none)
        ∧ ∀ ticker, st.routines[i]? = some (.find (.periodic ticker)) → st.Prompt h
  | _ => True

/-- What holds of `h` while the process is up. -/
structure Minded (h : String) (st : MonitorState) : Prop where
  tallied : st.Tallied
  sourced : st.Sourced
  swept : Swept {h} st
  tended : Tended h st

/-- Nobody has an order in hand that has no row. -/
theorem Sourced.unknown (hs : st.Sourced) (hnone : st.strategies.find h = none) :
    st.hands h = [] ∧ st.Sounds h := by
  have hother : ∀ j ∈ st.routines, ∀ r ∈ j.carries, r.commitmentHash ≠ h := by
    intro j hj r hr hhash
    obtain ⟨row, hrow, horder⟩ := (hs j hj).rows r hr
    exact Table.find_eq_none.1 hnone row hrow ((hash_of_order horder).trans hhash)
  refine ⟨List.filterMap_eq_nil_iff.2 fun j hj => ?_, fun j hj => ?_⟩
  · have hcarries := hother j hj
    cases j with
    | begin ctx s | trigger s sender | posted s | rollback s | resume s | registered s =>
        simp [hand, hcarries s (List.mem_singleton_self s)]
    | select l | evaluate l | write l v | sent l v | wrote l v =>
        have hne : l.hash ≠ h := hcarries _ (List.mem_singleton_self _)
        simp [hand, hne]
    | reset w rows | startAll w rows =>
        refine if_neg fun hin => ?_
        obtain ⟨r, hr, hhash⟩ := List.mem_map.1 hin
        exact hcarries r hr hhash
    | _ => rfl
  · have hcarries := hother j hj
    cases j with
    | write l v | sent l v | wrote l v =>
        exact fun hhash => absurd hhash (hcarries _ (List.mem_singleton_self _))
    | _ => trivial

/-- A sound goroutine without the hash in hand leaves the order tended. -/
theorem Tended.spawn (hc : Tended h st) (hb : ¬st.Rehydrating) (hk : st.hand h k = none)
    (hsound : st.Sound h k) : Tended h (st.spawn k) := by
  intro s hrow hopen
  obtain ⟨hheld, hsounds⟩ := hc s hrow hopen
  exact ⟨Or.inl ((hheld.resolve_right fun hr => hb hr.1).spawn hk), Sounds.spawn hsounds hsound⟩

/-- A new row comes with the goroutine that starts its monitor. -/
theorem Tended.register {fault : Fault} {t : StrategyTable} (hs : st.Sourced) (hc : Tended h st)
    (hb : ¬st.Rehydrating) (hsave : StrategyRepo.save fault s st.strategies = .ok t)
    (hpending : s.status = .PENDING) :
    Tended h { st.spawn (.registered s) with strategies := t } := by
  obtain ⟨-, hinsert⟩ := StrategyRepo.save_eq_ok.1 hsave
  intro r hrow hopen
  have hfind : t.find h = some r := hrow
  rw [Table.find_insert hinsert] at hfind
  by_cases hhash : s.commitmentHash = h
  · rw [if_pos hhash, Option.some.injEq] at hfind
    subst hfind
    have hfresh := Table.fresh_of_insert hinsert
    rw [hhash] at hfresh
    obtain ⟨hnobody, hsounds⟩ := hs.unknown hfresh
    refine ⟨Or.inl (Or.inl ?_), hsounds.spawn trivial⟩
    have hspawn : (st.spawn (.registered s)).hands h = [.PENDING] := by
      rw [hands_spawn, hnobody]
      exact congrArg Option.toList (if_pos hhash)
    rw [hpending]
    exact hspawn
  · rw [if_neg hhash] at hfind
    obtain ⟨hheld, hsounds⟩ := hc.spawn (k := .registered s) hb (if_neg hhash) trivial r hfind hopen
    exact ⟨hheld, hsounds⟩

/-- Nobody hears of the end of a hash of `K`. -/
def Unheard (K : Set String) : MonitorStep → Prop
  | .event topic => hexHash topic ∉ K
  | .callback c => c ∉ K
  | _ => True

/-- Every step of a run in which nobody hears of the end of an order of `K`
keeps the sweeper as it should be, or crashes. -/
theorem Swept.step {e : MonitorStep} (hw : Swept K st) (hunheard : Unheard K e)
    (hstep : st.step hasRegistry e = some st') : Sweeps K st' := by
  cases e with
  | wait d =>
      cases hstep
      exact fun _ => hw.same rfl rfl
  | register s fault =>
      simp only [MonitorState.step, MonitorState.register] at hstep
      split at hstep
      · rename_i hb
        split at hstep
        · cases hstep
          have hspawn : ∀ row, Swept K (st.spawn (.registered row)) := fun row =>
            hw.spawn (hw.settled hb) rfl List.nodup_nil (by simp [Routine.lets])
          exact fun _ => (hspawn _).same rfl rfl
        · cases hstep
          exact fun _ => hw
      · cases hstep
  | event topic =>
      simp only [MonitorState.step] at hstep
      split at hstep
      · rename_i hb
        cases hstep
        refine fun _ => hw.spawn (hw.settled hb) rfl List.nodup_nil ?_
        rintro c hc hlets
        cases hlets
        exact hunheard hc
      · cases hstep
  | callback c =>
      simp only [MonitorState.step] at hstep
      split at hstep
      · rename_i hb
        cases hstep
        refine fun _ => hw.spawn (hw.settled hb.1) rfl List.nodup_nil ?_
        rintro c hc hlets
        cases hlets
        exact hunheard hc
      · cases hstep
  | run i fault pairPrice reply =>
      simp only [MonitorState.step] at hstep
      split at hstep
      · cases hstep
      · rename_i j hj
        exact hw.run hj hstep
  | leave i =>
      simp only [MonitorState.step] at hstep
      split at hstep
      · rename_i l hj
        split at hstep
        · cases hstep
          exact fun _ => hw.put hj rfl List.nodup_nil (by simp [Routine.lets])
        · cases hstep
      · cases hstep

/-- Every regular step leaves the order tended. -/
theorem Tended.step {e : MonitorStep} (ht : st.Tallied) (hs : st.Sourced) (hw : Swept {h} st)
    (hc : Tended h st) (hregular : Regular h st e) (hstep : st.step hasRegistry e = some st')
    (hup : st'.crashed = false) : Tended h st' := by
  have hbooted : st.booted = true → ¬st.Rehydrating := by
    intro hb hr
    obtain ⟨j, hroutines, hsweep⟩ := hr
    have hstage := hw.settled hb
    rw [hroutines, List.filterMap_cons, hsweep] at hstage
    cases hstage
  cases e with
  | wait d =>
      cases hstep
      refine hc.same rfl rfl rfl ?_
      show st.now ≤ st.now + d
      omega
  | register s fault =>
      simp only [MonitorState.step, MonitorState.register] at hstep
      split at hstep
      · rename_i hb
        split at hstep
        · rename_i t hsave
          cases hstep
          exact hc.register hs (hbooted hb) hsave rfl
        · cases hstep
          exact hc
      · cases hstep
  | event topic =>
      simp only [MonitorState.step] at hstep
      split at hstep
      · rename_i hb
        cases hstep
        exact hc.spawn (hbooted hb) rfl trivial
      · cases hstep
  | callback c =>
      simp only [MonitorState.step] at hstep
      split at hstep
      · rename_i hb
        cases hstep
        exact hc.spawn (hbooted hb.1) rfl trivial
      · cases hstep
  | run i fault pairPrice reply =>
      simp only [MonitorState.step] at hstep
      split at hstep
      · cases hstep
      · rename_i j hj
        by_cases hsweep : j.sweep = some true
        · have hr : st.Rehydrating := by
            refine (hw.stage.resolve_left fun hstage => ?_).1
            cases filterMap_eq_of_holds (List.mem_of_getElem? hj) hsweep hstage
          refine Tended.rehydrate hr hj ?_ hstep
          rintro rfl
          exact hregular.1 hj
        · refine hc.settled ht hs hw hj hsweep ?_ hstep hup
          rintro ticker rfl
          exact hregular.2 ticker hj
  | leave i =>
      simp only [MonitorState.step] at hstep
      split at hstep
      · rename_i l hj
        split at hstep
        · rename_i hdead
          cases hstep
          intro s hrow hopen
          obtain ⟨hheld, hsounds⟩ := hc s hrow hopen
          have hsettled : st.Held h s.status := by
            refine hheld.resolve_right fun hr => ?_
            have hsweep := (hr.1.sole hj).2.2
            cases hsweep
          exact ⟨Or.inl (hsettled.put hj (if_neg (by simp [hdead])).symm),
            Sounds.put hsounds trivial⟩
        · cases hstep
      · cases hstep

/-- The steps of a process that is up. -/
theorem up_of_step {e : MonitorStep} (hstep : (monitorService hasRegistry).step e st = some st') :
    st.crashed = false ∧ st.step hasRegistry e = some st' := by
  simp only [monitorService] at hstep
  split at hstep
  · cases hstep
  · rename_i hcrashed
    exact ⟨eq_false_of_ne_true hcrashed, hstep⟩

/-- In a regular step nobody hears of the end of the order. -/
theorem unheard_of_regular {e : MonitorStep} (hregular : Regular h st e) : Unheard {h} e := by
  cases e with
  | event | callback => exact hregular
  | _ => trivial

/-- The invariant of the run is kept by every regular step, unless the
process crashes. -/
theorem Minded.step {e : MonitorStep} (hm : Minded h st) (hregular : Regular h st e)
    (hstep : (monitorService hasRegistry).step e st = some st') :
    st'.crashed = false → Minded h st' := by
  obtain ⟨ht, hs, hw, hc⟩ := hm
  intro hup
  have hagrees : st.Agrees := fun _ => ht
  obtain ⟨-, hown⟩ := up_of_step hstep
  exact ⟨hagrees.step hstep hup, (hs.life (l := .own e) hstep).1,
    hw.step (unheard_of_regular hregular) hown hup, hc.step ht hs hw hregular hown hup⟩

-- =================================================================== all runs

section Initial

variable {strategies : StrategyTable} {now : ℤ}

/-- At the start no monitor is counted. -/
theorem tallied_initial : (initial strategies now).Tallied := by
  refine tallied_of_empty rfl ?_
  intro j hj
  obtain rfl := List.mem_singleton.1 hj
  rfl

/-- The process starts with its start-up. -/
theorem rehydrating_initial : (initial strategies now).Rehydrating := ⟨_, rfl, rfl⟩

/-- At the start one goroutine sweeps: the start-up. -/
theorem swept_initial : Swept K (initial strategies now) := by
  refine ⟨Or.inr ⟨rehydrating_initial, rfl⟩, ?_, ?_⟩
  · intro j hj
    obtain rfl := List.mem_singleton.1 hj
    exact List.nodup_nil
  · intro j hj
    obtain rfl := List.mem_singleton.1 hj
    simp [Routine.lets]

end Initial

end MonitorState

open MonitorState

instance instDecidableSends (h : String) (j : Routine) : Decidable (j.Sends h) :=
  match j with
  | .wrote l .met => inferInstanceAs (Decidable (l.hash = h))
  | .trigger s _ | .posted s | .rollback s => inferInstanceAs (Decidable (s.commitmentHash = h))
  | .wrote _ .expired | .begin .. | .select _ | .evaluate _ | .write .. | .sent .. =>
      inferInstanceAs (Decidable False)
  | .resume _ | .idle _ | .find _ | .reset .. | .list | .startAll .. | .registered _
  | .stopFirst _ | .finish .. | .finished _ | .ended => inferInstanceAs (Decidable False)

end Zstrategy.Backend
