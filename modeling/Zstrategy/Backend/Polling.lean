/-
What the monitor sees of a DCA window. A `monitorLoop` evaluates when it
starts and then every `monitorTickInterval`; evaluations cost no time
here. The window of a round is as wide as the page makes it: two jitters.
A window narrower than a tick can open and close between two evaluations,
depending on the phase in which the goroutine was started.

The arithmetic is that of a loop whose evaluations hit an interval or step
over it (`exists_step_iff`); the rest puts in the numbers of the page and of
the monitor.
-/
import Zstrategy.Backend.MonitorService
import Zstrategy.Client.Schedule

namespace Zstrategy.Backend

open Lib Client

-- ================================================================= evaluations

/-- When a `monitorLoop` started at `start` evaluates for the `k`-th time,
counting from zero. -/
def evaluation (start : ℤ) (k : ℕ) : ℤ := start + k * monitorTickInterval

theorem unix_evaluation (start : ℤ) (k : ℕ) :
    unix (evaluation start k) = unix start + k * 30 := by
  unfold unix evaluation monitorTickInterval second
  push_cast
  omega

/-- Steps of `period` from before the window hit it if the phase fits. -/
theorem exists_step_iff {start lo hi period : ℤ} (hperiod : 0 < period) (hstart : start ≤ lo) :
    (∃ k : ℕ, lo ≤ start + k * period ∧ start + k * period ≤ hi)
      ↔ (start - lo) % period ≤ hi - lo := by
  have hdiv := Int.mul_ediv_add_emod (start - lo) period
  have hlt := Int.emod_lt_of_pos (start - lo) hperiod
  have hq : (start - lo) / period ≤ 0 := Int.ediv_nonpos_of_nonpos_of_neg (by omega) hperiod
  constructor
  · intro h
    obtain ⟨k, hlo, hhi⟩ := h
    -- the step lies a whole number of periods, and not fewer than none, past the phase
    have hk : 0 ≤ (start - lo) / period + k := by nlinarith
    nlinarith
  · intro h
    refine ⟨(-((start - lo) / period)).toNat, ?_⟩
    have hk : ((-((start - lo) / period)).toNat : ℤ) = -((start - lo) / period) := by omega
    have hemod := Int.emod_nonneg (start - lo) hperiod.ne'
    rw [hk]
    constructor <;> nlinarith

-- ===================================================================== windows

/-- The row that a round is watched as. -/
structure Watches (r : Window) (s : PendingStrategy) : Prop where
  kind : s.kind = .DCA
  scheduledLo : s.scheduledLo = some r.scheduledLo
  scheduledHi : s.scheduledHi = some r.scheduledHi

/-- A loop started at `start` and not stopped meanwhile evaluates in the
window, by the Unix time it reads, and finds the fill condition met. -/
def Seen (hasRegistry : Bool) (r : Window) (s : PendingStrategy) (start : ℤ)
    (pairPrice : ℕ → PairPrice) : Prop :=
  ∃ k, let now := unix (evaluation start k)
    r.scheduledLo ≤ now ∧ now ≤ r.scheduledHi
      ∧ isFillConditionMet hasRegistry s now (pairPrice k) = .ok true

variable {hasRegistry : Bool} {r : Window} {s : PendingStrategy} {pairPrice : ℕ → PairPrice}

/-- The fill condition of a round is its window. -/
theorem isFillConditionMet_dca (hs : Watches r s) (now : ℤ) (price : PairPrice) :
    isFillConditionMet hasRegistry s now price
      = .ok (decide (r.scheduledLo ≤ now ∧ now ≤ r.scheduledHi)) := by
  unfold isFillConditionMet
  rw [hs.kind, hs.scheduledLo, hs.scheduledHi]

/-- A loop that is on time sees a window exactly if its phase fits. -/
theorem seen_iff (hs : Watches r s) {start : ℤ} (hstart : start ≤ r.scheduledLo * second) :
    Seen hasRegistry r s start pairPrice
      ↔ (unix start - r.scheduledLo) % 30 ≤ r.scheduledHi - r.scheduledLo := by
  have hunix : unix start ≤ r.scheduledLo := by
    unfold unix
    unfold second at hstart ⊢
    push_cast at hstart ⊢
    omega
  rw [← exists_step_iff (by decide) hunix]
  constructor
  · intro h
    obtain ⟨k, hlo, hhi, -⟩ := h
    rw [unix_evaluation] at hlo hhi
    exact ⟨k, hlo, hhi⟩
  · intro h
    obtain ⟨k, hlo, hhi⟩ := h
    rw [← unix_evaluation] at hlo hhi
    refine ⟨k, hlo, hhi, ?_⟩
    rw [isFillConditionMet_dca hs, decide_eq_true ⟨hlo, hhi⟩]

/-- From 100 seconds on an interval has windows wider than a tick. -/
theorem window_wide {interval : ℤ} (hI : 100 ≤ interval) (now start : ℤ) (i : ℕ) :
    (unix start - (window interval now i).scheduledLo) % 30
      ≤ (window interval now i).scheduledHi - (window interval now i).scheduledLo := by
  have hphase : (unix start - (window interval now i).scheduledLo) % 30 < 30 :=
    Int.emod_lt_of_pos _ (by decide)
  rw [window_eq] at hphase ⊢
  simp only at hphase ⊢
  omega

/-- Every round of an offered interval is seen whenever its loop is
started, except that a round of a minute is seen from some phases only:
its window is open for 18 of the 30 seconds of a tick. -/
theorem round_seen_iff {name : String} {interval : ℤ} (hoffer : (name, interval) ∈ INTERVALS)
    {now : ℤ} {roundCount i : ℕ} (hr : (buildSchedule roundCount interval now)[i]? = some r)
    (hs : Watches r s) {start : ℤ} (hstart : start ≤ r.scheduledLo * second) :
    Seen hasRegistry r s start pairPrice
      ↔ interval ≠ 60 ∨ (unix start - now + 9) % 30 ≤ 18 := by
  obtain ⟨hlt, rfl⟩ := List.getElem?_eq_some_iff.1 hr
  rw [getElem_buildSchedule] at hs hstart
  rw [getElem_buildSchedule, seen_iff hs hstart]
  have hcases : interval = 60 ∨ 100 ≤ interval := by
    simp only [INTERVALS, List.mem_cons, Prod.mk.injEq, List.not_mem_nil, or_false] at hoffer
    omega
  rcases hcases with rfl | hwide
  · -- a minute: the jitter is nine seconds
    rw [window_eq]
    simp only
    omega
  · have hall := window_wide hwide now start i
    have hne : interval ≠ 60 := by omega
    exact ⟨fun _ => Or.inl hne, fun _ => hall⟩

-- ==================================================================== a sample

/-- The first round of two, a minute apart, made at 1700000000. -/
def minuteRound : PendingStrategy where
  commitmentHash := "0x000000000000000000000000000000000000000000000000000000000000000d"
  chainID := 31337
  kind := .DCA
  tokenIn := "0x0a"
  tokenOut := "0x0b"
  size := "30"
  minOut := "0"
  expiry := 1700000129
  limitPrice := "0"
  direction := 0
  nonce := "0x06"
  nullifier := "0x07"
  scheduledLo := some 1700000051
  scheduledHi := some 1700000069
  status := .PENDING
  updatedAt := 0

def minuteWindow : Window := ⟨1700000051, 1700000069, 1700000129⟩

theorem minuteWindow_scheduled : (buildSchedule 2 60 1700000000)[0]? = some minuteWindow := by
  decide +kernel

/-- A loop started 21 seconds after the round was made sees it. -/
theorem round_seen_iff_sample :
    Seen true minuteWindow minuteRound (1700000021 * second) fun _ => .error "" := by
  have hstart : (1700000021 * second : ℤ) ≤ minuteWindow.scheduledLo * second := by decide
  refine (round_seen_iff (List.mem_cons_self) minuteWindow_scheduled ⟨rfl, rfl, rfl⟩ hstart).2 ?_
  exact Or.inr (by decide)

/-- One started a second earlier never does. -/
theorem minute_round_missed :
    (buildSchedule 2 60 1700000000)[0]? = some minuteWindow ∧ Watches minuteWindow minuteRound
      ∧ (1700000020 * second : ℤ) ≤ minuteWindow.scheduledLo * second
      ∧ ∀ k price, isFillConditionMet true minuteRound
          (unix (evaluation (1700000020 * second) k)) price = .ok false := by
  have hs : Watches minuteWindow minuteRound := ⟨rfl, rfl, rfl⟩
  refine ⟨minuteWindow_scheduled, hs, by decide, fun k price => ?_⟩
  have hunix : unix (1700000020 * second) = 1700000020 := by decide
  rw [isFillConditionMet_dca hs, unix_evaluation, hunix]
  have hmiss : ¬(minuteWindow.scheduledLo ≤ 1700000020 + (k : ℤ) * 30
      ∧ 1700000020 + (k : ℤ) * 30 ≤ minuteWindow.scheduledHi) := by
    unfold minuteWindow
    simp only
    omega
  rw [decide_eq_false hmiss]

end Zstrategy.Backend
