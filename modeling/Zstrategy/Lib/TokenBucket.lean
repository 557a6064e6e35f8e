/-
Token buckets: tokens come in at a steady rate up to a cap, and a request
takes one if there is one. Tokens and times are in any ordered field.

What a request takes was in the bucket before or came in since, so the
requests admitted up to a time are paid for by what the bucket held and by
what came in. That bounds every window: when it opens, the bucket holds at
most its cap.
-/
import Mathlib.Algebra.Order.Field.Basic
import Mathlib.Tactic.Linarith
import Mathlib.Tactic.Ring

namespace Zstrategy.Lib

structure TokenBucket (𝕜 : Type) where
  tokens : 𝕜
  /-- When it was last asked. -/
  updated : 𝕜
  deriving DecidableEq

namespace TokenBucket

variable {𝕜 : Type} [Field 𝕜] [LinearOrder 𝕜] (cap rate : 𝕜)

def full (now : 𝕜) : TokenBucket 𝕜 := ⟨cap, now⟩

/-- What came in since it was last asked. -/
def refill (now : 𝕜) (b : TokenBucket 𝕜) : TokenBucket 𝕜 :=
  ⟨min cap (b.tokens + (now - b.updated) * rate), now⟩

/-- Take a token, if there is one. -/
def ask (now : 𝕜) (b : TokenBucket 𝕜) : TokenBucket 𝕜 × Bool :=
  let b := b.refill cap rate now
  if b.tokens < 1 then (b, false) else ({ b with tokens := b.tokens - 1 }, true)

/-- What requests at these times are told, in order. -/
def answers : List 𝕜 → TokenBucket 𝕜 → List (𝕜 × Bool)
  | [], _ => []
  | t :: ts, b => (t, (b.ask cap rate t).2) :: answers ts (b.ask cap rate t).1

/-- The tokens of a bucket. -/
def InRange (b : TokenBucket 𝕜) : Prop := 0 ≤ b.tokens ∧ b.tokens ≤ cap

/-- Those admitted at times that meet `p`. -/
def admitted (p : 𝕜 → Bool) (l : List (𝕜 × Bool)) : ℕ := l.countP fun x => p x.1 && x.2

/-- What is taken is paid for. -/
theorem ask_pays (now : 𝕜) (b : TokenBucket 𝕜) :
    (b.ask cap rate now).1.tokens + (if (b.ask cap rate now).2 then 1 else 0)
      = (b.refill cap rate now).tokens := by
  unfold ask
  dsimp only
  split
  · rw [if_neg Bool.false_ne_true, add_zero]
  · rw [if_pos rfl, sub_add_cancel]

variable {cap rate} {b : TokenBucket 𝕜} {now : 𝕜}

theorem ask_updated : (b.ask cap rate now).1.updated = now := by
  unfold ask refill
  dsimp only
  split <;> rfl

theorem InRange.full (hcap : 0 ≤ cap) : (full cap now).InRange cap := ⟨hcap, le_refl _⟩

section Ordered

variable [IsStrictOrderedRing 𝕜]

theorem InRange.refill (hb : b.InRange cap) (hrate : 0 ≤ rate) (hcap : 0 ≤ cap)
    (hnow : b.updated ≤ now) : (b.refill cap rate now).InRange cap := by
  refine ⟨le_min hcap ?_, min_le_left _ _⟩
  have hcame : 0 ≤ (now - b.updated) * rate := mul_nonneg (sub_nonneg.2 hnow) hrate
  linarith [hb.1]

theorem InRange.ask (hb : b.InRange cap) (hrate : 0 ≤ rate) (hcap : 0 ≤ cap)
    (hnow : b.updated ≤ now) : (b.ask cap rate now).1.InRange cap := by
  have hr := hb.refill hrate hcap hnow
  unfold TokenBucket.ask
  dsimp only
  split
  · exact hr
  · rename_i hone
    have hone := not_lt.1 hone
    exact ⟨sub_nonneg.2 hone, by linarith [hr.2]⟩

/-- A bucket that had the time to fill up is as good as a full one. -/
theorem ask_of_idle (hb : b.InRange cap) (hidle : cap ≤ (now - b.updated) * rate) :
    b.ask cap rate now = (full cap now).ask cap rate now := by
  have hfull : b.refill cap rate now = (full cap now).refill cap rate now := by
    unfold TokenBucket.refill full
    have hmin : min cap (b.tokens + (now - b.updated) * rate) = cap :=
      min_eq_left (by linarith [hb.1])
    rw [hmin, sub_self, zero_mul, add_zero, min_self]
  unfold TokenBucket.ask
  rw [hfull]

end Ordered

-- ================================================================== the windows

variable {ts : List 𝕜} {p : 𝕜 → Bool}

theorem admitted_cons (cap rate t : 𝕜) (ts : List 𝕜) (b : TokenBucket 𝕜) :
    admitted p (answers cap rate (t :: ts) b)
      = admitted p (answers cap rate ts (b.ask cap rate t).1)
        + if (p t && (b.ask cap rate t).2) = true then 1 else 0 :=
  List.countP_cons

/-- Nobody is admitted when nobody asks. -/
theorem admitted_eq_zero (hp : ∀ t ∈ ts, p t = false) :
    admitted p (answers cap rate ts b) = 0 := by
  induction ts generalizing b with
  | nil => rfl
  | cons t ts ih =>
      rw [admitted_cons, hp t List.mem_cons_self]
      rw [ih fun u hu => hp u (List.mem_cons_of_mem _ hu)]
      rfl

variable [IsStrictOrderedRing 𝕜]

/-- The first request is paid for out of what it finds. -/
theorem admitted_first (cap rate t : 𝕜) (ts : List 𝕜) (b : TokenBucket 𝕜) :
    (admitted p (answers cap rate (t :: ts) b) : 𝕜) + (b.ask cap rate t).1.tokens
      ≤ admitted p (answers cap rate ts (b.ask cap rate t).1)
        + (b.refill cap rate t).tokens := by
  have hpays := ask_pays cap rate t b
  rw [admitted_cons]
  by_cases hok : (b.ask cap rate t).2 = true
  · rw [if_pos hok] at hpays
    split
    · push_cast
      linarith
    · push_cast
      linarith
  · rw [if_neg hok] at hpays
    have hnot : ¬(p t && (b.ask cap rate t).2) = true := by
      rw [Bool.and_eq_true]
      exact fun h => hok h.2
    rw [if_neg hnot]
    push_cast
    linarith

/-- What is admitted up to `z` was there, or came in until then. -/
theorem admitted_until (hrate : 0 ≤ rate) (hcap : 0 ≤ cap) (hts : ts.Pairwise (· ≤ ·))
    (hb : b.InRange cap) (hup : ∀ t ∈ ts, b.updated ≤ t) {z : 𝕜}
    (hp : ∀ t, p t = true → t ≤ z) (hz : b.updated ≤ z) :
    (admitted p (answers cap rate ts b) : 𝕜) ≤ b.tokens + (z - b.updated) * rate := by
  have hcame : 0 ≤ (z - b.updated) * rate := mul_nonneg (sub_nonneg.2 hz) hrate
  induction ts generalizing b with
  | nil =>
      have hnone : admitted p (answers cap rate [] b) = 0 := rfl
      rw [hnone, Nat.cast_zero]
      linarith [hb.1]
  | cons t ts ih =>
      obtain ⟨hle, hts⟩ := List.pairwise_cons.1 hts
      have hnow : b.updated ≤ t := hup t List.mem_cons_self
      by_cases htz : t ≤ z
      · have hrest := ih hts (hb.ask hrate hcap hnow) (by rwa [ask_updated])
          (by rwa [ask_updated])
          (by rw [ask_updated]; exact mul_nonneg (sub_nonneg.2 htz) hrate)
        rw [ask_updated] at hrest
        have hfirst := admitted_first (p := p) cap rate t ts b
        have hheld : (b.refill cap rate t).tokens ≤ b.tokens + (t - b.updated) * rate :=
          min_le_right _ _
        have hsplit : (z - b.updated) * rate = (t - b.updated) * rate + (z - t) * rate := by
          ring
        linarith
      · have hnone : admitted p (answers cap rate (t :: ts) b) = 0 := by
          apply admitted_eq_zero
          intro u hu
          apply eq_false_of_ne_true
          intro hpu
          rcases List.mem_cons.1 hu with rfl | hu
          · exact htz (hp u hpu)
          · exact htz ((hle u hu).trans (hp u hpu))
        rw [hnone, Nat.cast_zero]
        linarith [hb.1]

/-- Of the requests between `y` and `z`, no more are admitted than the cap
and what comes in between `y` and `z`. -/
theorem admitted_between (hrate : 0 ≤ rate) (hcap : 0 ≤ cap) (hts : ts.Pairwise (· ≤ ·))
    (hb : b.InRange cap) (hup : ∀ t ∈ ts, b.updated ≤ t) {y z : 𝕜} (hyz : y ≤ z)
    (hp : ∀ t, p t = true → y ≤ t ∧ t ≤ z) :
    (admitted p (answers cap rate ts b) : 𝕜) ≤ cap + (z - y) * rate := by
  have hcame : 0 ≤ (z - y) * rate := mul_nonneg (sub_nonneg.2 hyz) hrate
  induction ts generalizing b with
  | nil =>
      have hnone : admitted p (answers cap rate [] b) = 0 := rfl
      rw [hnone, Nat.cast_zero]
      linarith
  | cons t ts ih =>
      obtain ⟨hle, hts⟩ := List.pairwise_cons.1 hts
      have hnow : b.updated ≤ t := hup t List.mem_cons_self
      have hask := hb.ask hrate hcap hnow
      have hrest : ∀ u ∈ ts, (b.ask cap rate t).1.updated ≤ u := by rwa [ask_updated]
      by_cases hin : p t = true
      · -- the window is open: from here on the bucket and what comes in pay
        obtain ⟨hyt, htz⟩ := hp t hin
        have huntil := admitted_until hrate hcap hts hask hrest (fun u hu => (hp u hu).2)
          (by rwa [ask_updated])
        rw [ask_updated] at huntil
        have hfirst := admitted_first (p := p) cap rate t ts b
        have hheld : (b.refill cap rate t).tokens ≤ cap := min_le_left _ _
        have hlate : (z - t) * rate ≤ (z - y) * rate :=
          mul_le_mul_of_nonneg_right (by linarith) hrate
        linarith
      · rw [admitted_cons, eq_false_of_ne_true hin]
        exact ih hts hask hrest

end TokenBucket

end Zstrategy.Lib
