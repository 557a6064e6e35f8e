/-
What `MonitorService` shares between goroutines: the map of live monitors
and the gauge. A monitor's context is named by the position of its
goroutine in the order they were started. Each of the two operations runs
under the mutex, so it is one atomic step.

The gauge is kept as the code keeps it, by adding and subtracting; that it
counts the entries is proved in OneMonitor.lean, and not assumed here.
-/
import Mathlib.Logic.Function.Basic
import Zstrategy.Backend.Repositories

namespace Zstrategy.Backend

open Function (update)

/-- `trackedMonitor`: the context that `cancel` cancels, and the gauge
label. -/
structure Tracked where
  ctx : ℕ
  kind : StrategyKind
  deriving DecidableEq

structure Monitors where
  stopChans : String → Option Tracked
  /-- The strategies of all goroutines ever started, in order. -/
  goroutines : List PendingStrategy
  /-- Cancelled contexts. -/
  cancelled : ℕ → Bool
  /-- `metrics.PendingStrategies`. -/
  gauge : StrategyKind → ℤ

namespace Monitors

def empty : Monitors := ⟨fun _ => none, [], fun _ => false, fun _ => 0⟩

/-- `startMonitoring`. -/
def startMonitoring (s : PendingStrategy) (m : Monitors) : Monitors :=
  match m.stopChans s.commitmentHash with
  | some _ => m
  | none =>
      { stopChans := update m.stopChans s.commitmentHash (some ⟨m.goroutines.length, s.kind⟩)
        goroutines := m.goroutines ++ [s]
        cancelled := m.cancelled
        gauge := update m.gauge s.kind (m.gauge s.kind + 1) }

/-- `StopMonitoring`. -/
def stopMonitoring (commitmentHash : String) (m : Monitors) : Monitors :=
  match m.stopChans commitmentHash with
  | none => m
  | some tm =>
      { stopChans := update m.stopChans commitmentHash none
        goroutines := m.goroutines
        cancelled := update m.cancelled tm.ctx true
        gauge := update m.gauge tm.kind (m.gauge tm.kind - 1) }

theorem startMonitoring_cancelled (s : PendingStrategy) (m : Monitors) :
    (m.startMonitoring s).cancelled = m.cancelled := by
  unfold startMonitoring
  cases m.stopChans s.commitmentHash <;> rfl

theorem startMonitoring_other {s : PendingStrategy} {m : Monitors} {h : String}
    (hne : h ≠ s.commitmentHash) :
    (m.startMonitoring s).stopChans h = m.stopChans h := by
  unfold startMonitoring
  cases m.stopChans s.commitmentHash with
  | some tm => rfl
  | none => exact Function.update_of_ne hne _ _

theorem startMonitoring_fresh {s : PendingStrategy} {m : Monitors}
    (hnone : m.stopChans s.commitmentHash = none) :
    (m.startMonitoring s).stopChans s.commitmentHash = some ⟨m.goroutines.length, s.kind⟩ := by
  simp [startMonitoring, hnone]

theorem stopMonitoring_other {m : Monitors} {c h : String} (hne : h ≠ c) :
    (m.stopMonitoring c).stopChans h = m.stopChans h := by
  unfold stopMonitoring
  cases m.stopChans c with
  | none => rfl
  | some tm => exact Function.update_of_ne hne _ _

theorem stopMonitoring_self (m : Monitors) (c : String) :
    (m.stopMonitoring c).stopChans c = none := by
  cases hc : m.stopChans c with
  | none => simp [stopMonitoring, hc]
  | some tm => simp [stopMonitoring, hc]

/-- A stop cancels what it finds. -/
theorem stopMonitoring_cancels {m : Monitors} {c : String} {tm : Tracked}
    (hc : m.stopChans c = some tm) : (m.stopMonitoring c).cancelled tm.ctx = true := by
  simp [stopMonitoring, hc]

theorem stopMonitoring_alive {m : Monitors} {c : String} {ctx : ℕ}
    (hctx : (m.stopMonitoring c).cancelled ctx = false) : m.cancelled ctx = false := by
  cases hc : m.stopChans c with
  | none => simpa [stopMonitoring, hc] using hctx
  | some tm =>
      by_cases heq : ctx = tm.ctx
      · rw [heq, stopMonitoring_cancels hc] at hctx
        cases hctx
      · simpa [stopMonitoring, hc, Function.update_of_ne heq] using hctx

end Monitors

end Zstrategy.Backend
