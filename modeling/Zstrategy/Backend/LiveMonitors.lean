/-
Which monitors live. A goroutine whose context is not cancelled is the one
that `stopChans` holds under its hash, in every state the process reaches:
a start makes its entry in the same section, and whatever removes an entry
cancels it. So a stop leaves no living monitor of its hash.

The invariant is about the context and the hash of a goroutine only
(`Routine.monitor`), so every step of a monitor's loop keeps it for the same
reason, whatever the table, the price and the keeper answer.
-/
import Zstrategy.Backend.MonitorService

namespace Zstrategy.Backend

open Lib

/-- The context and the hash of a monitor. -/
def Routine.monitor : Routine → Option (ℕ × String)
  | .begin ctx s => some (ctx, s.commitmentHash)
  | .select l | .evaluate l | .write l _ | .sent l _ | .wrote l _ => some (l.ctx, l.hash)
  | _ => none

namespace MonitorState

variable {hasRegistry : Bool} {st st' : MonitorState} {i : ℕ} {j k : Routine} {h : String}

/-- What a goroutine of a living context finds in the map. -/
def TracksRoutine (st : MonitorState) (j : Routine) : Prop :=
  ∀ ctx h, j.monitor = some (ctx, h) → st.monitors.cancelled ctx = false →
    ∃ kind, st.monitors.stopChans h = some ⟨ctx, kind⟩

/-- Every living monitor is the tracked one. -/
def TracksAll (st : MonitorState) : Prop := ∀ j ∈ st.routines, st.TracksRoutine j

theorem TracksRoutine.of_none (hj : j.monitor = none) : st.TracksRoutine j := by
  intro ctx h heq
  rw [hj] at heq
  cases heq

theorem TracksAll.put (ht : st.TracksAll) (hj : st.TracksRoutine j) : (st.put i j).TracksAll := by
  intro k hk
  rcases mem_put hk with hold | rfl
  · exact ht k hold
  · exact hj

theorem TracksAll.spawn (ht : st.TracksAll) (hj : st.TracksRoutine j) : (st.spawn j).TracksAll := by
  intro k hk
  rcases mem_spawn hk with hold | rfl
  · exact ht k hold
  · exact hj

theorem TracksAll.crash : st.crash.TracksAll := by
  intro k hk
  cases hk

theorem TracksAll.slice {next : MonitorState} (hn : next.TracksAll) :
    (st.slice h next).TracksAll := by
  rcases slice_cases st h next with ⟨-, hs⟩ | hs
  · rw [hs]
    exact hn
  · rw [hs]
    exact TracksAll.crash

theorem TracksAll.start (ht : st.TracksAll) (s : PendingStrategy) : (st.start s).TracksAll := by
  intro k hk ctx h hm halive
  rw [start_monitors] at halive ⊢
  rw [Monitors.startMonitoring_cancelled] at halive
  rcases mem_start hk with hold | ⟨hnone, rfl⟩
  · obtain ⟨kind, htracked⟩ := ht k hold ctx h hm halive
    refine ⟨kind, ?_⟩
    by_cases heq : h = s.commitmentHash
    · -- an entry under this hash means that nothing was started
      subst heq
      simp [Monitors.startMonitoring, htracked]
    · rw [Monitors.startMonitoring_other heq]
      exact htracked
  · cases hm
    exact ⟨s.kind, Monitors.startMonitoring_fresh hnone⟩

theorem TracksAll.stop (ht : st.TracksAll) (c : String) : (st.stop c).TracksAll := by
  intro k hk ctx h hm halive
  obtain ⟨kind, htracked⟩ := ht k hk ctx h hm (Monitors.stopMonitoring_alive halive)
  refine ⟨kind, ?_⟩
  by_cases heq : h = c
  · subst heq
    have hdead := Monitors.stopMonitoring_cancels htracked
    rw [show (st.stop h).monitors.cancelled ctx = true from hdead] at halive
    cases halive
  · exact (Monitors.stopMonitoring_other heq).trans htracked

/-- A stop leaves no living monitor of its hash. -/
theorem TracksAll.dead_of_stop (ht : st.TracksAll) {ctx : ℕ} (hk : k ∈ st.routines)
    (hm : k.monitor = some (ctx, h)) : (st.stop h).monitors.cancelled ctx = true := by
  by_contra halive
  rw [Bool.not_eq_true] at halive
  obtain ⟨kind, htracked⟩ := ht.stop h k hk ctx h hm halive
  rw [show (st.stop h).monitors.stopChans h = none from
    Monitors.stopMonitoring_self st.monitors h] at htracked
  cases htracked

theorem TracksAll.updateFailed (ht : st.TracksAll) {l : Loop} (v : Verdict)
    (hl : st.TracksRoutine (.select l)) : (st.updateFailed i l v).TracksAll := by
  cases v with
  | expired => exact TracksAll.slice (ht.put hl)
  | met => exact TracksAll.slice (ht.put hl)

/-- What a goroutine's own step keeps. -/
theorem TracksAll.run {fault : Fault} {pairPrice : PairPrice} {reply : Option ℕ}
    (ht : st.TracksAll) (hj : st.routines[i]? = some j)
    (h : st.run hasRegistry i fault pairPrice reply j = some st') : st'.TracksAll := by
  have hmine : st.TracksRoutine j := ht j (List.mem_of_getElem? hj)
  cases ran_of_run h with
  | begun ctx s => exact ht.put hmine
  | ticked l hdue => exact ht.put hmine
  | unjudged l => exact TracksAll.slice (ht.put hmine)
  | unmet l => exact ht.put hmine
  | judged l v hjudge => exact TracksAll.slice (ht.put hmine)
  | cancelled l v hdead => exact ht.updateFailed v hmine
  | sent l v halive => exact ht.put hmine
  | wrote l v t hu =>
      have hput : (st.put i (.wrote l v)).TracksAll := ht.put hmine
      exact hput
  | unwritten l v => exact ht.updateFailed v hmine
  | expired l =>
      have hstop := ht.stop l.hash
      have hselect : (st.stop l.hash).TracksRoutine (.select l) :=
        hstop (.wrote l .expired) (List.mem_of_getElem? hj)
      exact hstop.put hselect
  | met l =>
      have hstop := ht.stop l.hash
      have hselect : (st.stop l.hash).TracksRoutine (.select l) :=
        hstop (.wrote l .met) (List.mem_of_getElem? hj)
      exact (hstop.put hselect).spawn (.of_none rfl)
  | posted s sender => exact ht.put (.of_none rfl)
  | answered s => exact TracksAll.slice (ht.put (.of_none rfl))
  | rejected s => exact TracksAll.slice (ht.put (.of_none rfl))
  | rolledBack s t hu => exact ht.put (.of_none rfl)
  | stranded s => exact ht.put (.of_none rfl)
  | resumed s => exact (ht.put (.of_none rfl)).start s
  | woken ticker => exact ht.put (.of_none rfl)
  | noneStuck w => exact ht.put (.of_none (by cases w <;> rfl))
  | someStuck w stuck hu => exact ht.put (.of_none rfl)
  | notReset w stuck => exact ht.put (.of_none (by cases w <;> rfl))
  | rehydrated stuck t hu => exact ht.put (.of_none rfl)
  | swept ticker stuck t hu => exact ht.put (.of_none rfl)
  | unlisted => exact (ht.put (.of_none rfl)).spawn (.of_none rfl)
  | listed rows hu => exact ht.put (.of_none rfl)
  | started w s rest => exact (ht.put (.of_none rfl)).start s
  | booted => exact (ht.put (.of_none rfl)).spawn (.of_none rfl)
  | slept ticker => exact ht.put (.of_none rfl)
  | registered s => exact (ht.put (.of_none rfl)).start s
  | stoppedFirst c => exact (ht.stop c).put (.of_none rfl)
  | marked c recovers t hu => exact ht.put (.of_none rfl)
  | unmarked c recovers hsize => exact ht.put (.of_none rfl)
  | recovered c hsize => exact ht.put (.of_none rfl)
  | panicked c hsize => exact TracksAll.crash
  | stopped c => exact (ht.stop c).put (.of_none rfl)

theorem TracksAll.step {l : MonitorStep} (ht : st.TracksAll)
    (h : (monitorService hasRegistry).step l st = some st') : st'.TracksAll := by
  simp only [monitorService] at h
  split at h
  · cases h
  cases l with
  | wait d =>
      cases h
      exact ht
  | register s fault =>
      simp only [MonitorState.step, MonitorState.register] at h
      split at h
      · split at h
        · cases h
          exact ht.spawn (.of_none rfl)
        · cases h
          exact ht
      · cases h
  | event topic =>
      simp only [MonitorState.step] at h
      split at h
      · cases h
        exact ht.spawn (.of_none rfl)
      · cases h
  | callback c =>
      simp only [MonitorState.step] at h
      split at h
      · cases h
        exact ht.spawn (.of_none rfl)
      · cases h
  | run i fault pairPrice reply =>
      simp only [MonitorState.step] at h
      split at h
      · cases h
      · rename_i j hj
        exact ht.run hj h
  | leave i =>
      simp only [MonitorState.step] at h
      split at h
      · split at h
        · cases h
          exact ht.put (.of_none rfl)
        · cases h
      · cases h

end MonitorState

end Zstrategy.Backend
