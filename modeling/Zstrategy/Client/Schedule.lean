/-
`frontend/src/app/(dashboard)/dca/page.tsx`: the schedule of a DCA
strategy. Round `i` is centred `i + 1` intervals from now; it may execute
from a jitter before its centre to a jitter after it, and its commitment
lives for one more interval.

Times are whole seconds. The page multiplies in floating point; here
`0.15 * interval` is exact before it is rounded down.

Neighbouring windows stay apart because twice the jitter, at most 0.30 of an
interval, is less than an interval.
-/
import Mathlib.Algebra.Order.Floor.Ring
import Mathlib.Data.Rat.Floor
import Zstrategy.Circuits.Dca

namespace Zstrategy.Client

open Lib

/-- The intervals the page offers, in seconds. -/
def INTERVALS : List (String × ℤ) :=
  [("1 MIN", 60), ("6H", 6 * 3600), ("24H", 86400), ("7D", 7 * 86400)]

/-- A share of the interval, before and after the centre. -/
def JITTER : ℚ := 15 / 100

structure Window where
  scheduledLo : ℤ
  scheduledHi : ℤ
  expiry : ℤ
  deriving DecidableEq

def jitter (interval : ℤ) : ℤ := ⌊JITTER * interval⌋

/-- Round `i` of a schedule. -/
def window (interval now : ℤ) (i : ℕ) : Window :=
  let center := now + (i + 1) * interval
  let scheduledHi := center + jitter interval
  { scheduledLo := center - jitter interval
    scheduledHi
    expiry := scheduledHi + interval }

def buildSchedule (roundCount : ℕ) (interval now : ℤ) : List Window :=
  (List.range roundCount).map (window interval now)

-- ================================================================= the windows

variable {interval now : ℤ}

theorem jitter_eq (interval : ℤ) : jitter interval = 15 * interval / 100 := by
  have h : JITTER * interval = ((15 * interval : ℤ) : ℚ) / ((100 : ℕ) : ℚ) := by
    rw [JITTER]
    push_cast
    ring
  rw [jitter, h, Rat.floor_intCast_div_natCast]
  rfl

/-- A round's window, linear in its centre. -/
theorem window_eq (interval now : ℤ) (i : ℕ) :
    window interval now i
      = ⟨now + (i + 1) * interval - 15 * interval / 100,
          now + (i + 1) * interval + 15 * interval / 100,
          now + (i + 1) * interval + 15 * interval / 100 + interval⟩ := by
  simp only [window, jitter_eq]

@[simp] theorem length_buildSchedule (n : ℕ) (interval now : ℤ) :
    (buildSchedule n interval now).length = n := by
  rw [buildSchedule, List.length_map, List.length_range]

theorem getElem_buildSchedule {n i : ℕ} (h : i < (buildSchedule n interval now).length) :
    (buildSchedule n interval now)[i] = window interval now i := by
  simp [buildSchedule]

/-- The next round is one interval later. -/
theorem window_succ (interval now : ℤ) (i : ℕ) :
    (window interval now (i + 1)).scheduledLo
      = (window interval now i).scheduledLo + interval := by
  rw [window_eq, window_eq]
  push_cast
  ring

/-- A window lies in the future, in order, and before its expiry. -/
theorem window_ordered (hI : 1 ≤ interval) (now : ℤ) (i : ℕ) :
    let r := window interval now i
    now < r.scheduledLo ∧ r.scheduledLo ≤ r.scheduledHi ∧ r.scheduledHi < r.expiry := by
  have hcenter : interval ≤ (i + 1) * interval := by nlinarith
  rw [window_eq]
  refine ⟨?_, ?_, ?_⟩ <;> simp only <;> omega

/-- Rounds do not overlap. -/
theorem window_apart (hI : 1 ≤ interval) (now : ℤ) (i : ℕ) :
    (window interval now i).scheduledHi < (window interval now (i + 1)).scheduledLo := by
  rw [window_succ, window_eq]
  simp only
  omega

/-- From 429 seconds on, a round is over more than five minutes before the
next one opens. -/
theorem window_far (hI : 429 ≤ interval) (now : ℤ) (i : ℕ) :
    (window interval now i).scheduledHi + 300
      < (window interval now (i + 1)).scheduledLo := by
  rw [window_succ, window_eq]
  simp only
  omega

/-- Later rounds open later. -/
theorem window_mono (hI : 1 ≤ interval) (now : ℤ) {i j : ℕ} (h : i ≤ j) :
    (window interval now i).scheduledLo ≤ (window interval now j).scheduledLo := by
  induction h with
  | refl => exact le_refl _
  | step _ ih =>
      rw [window_succ]
      omega

-- ================================================================= the circuit

open Circuits (Hash PublicInputs)

/-- The private schedule and the public expiry are those of the round. -/
structure Window.Opens (r : Window) (p : Circuits.Dca.Private) (expiry : UInt64) : Prop where
  scheduledLo : (p.scheduledLo.toNat : ℤ) = r.scheduledLo
  scheduledHi : (p.scheduledHi.toNat : ℤ) = r.scheduledHi
  expiry : (expiry.toNat : ℤ) = r.expiry

/-- The circuit reports no expiry for a round of a schedule: a time in the
window is before the expiry, and any other time is turned down earlier. -/
theorem main_ne_expired (hI : 1 ≤ interval) {i : ℕ} {keccak256 : Hash}
    {p : Circuits.Dca.Private} {x : PublicInputs}
    (hr : (window interval now i).Opens p x.terms.expiry) :
    Circuits.Dca.main keccak256 p x ≠ .error "commitment expired" := by
  intro h
  obtain ⟨⟨-, hhi⟩, hexp⟩ := Circuits.Dca.main_eq_expired h
  obtain ⟨-, -, hlive⟩ := window_ordered hI now i
  have hle : x.terms.expiry.toNat ≤ p.scheduledHi.toNat :=
    UInt64.le_iff_toNat_le.1 (UInt64.le_trans hexp hhi)
  have hopens := hr.scheduledHi
  have hopens' := hr.expiry
  omega

end Zstrategy.Client
