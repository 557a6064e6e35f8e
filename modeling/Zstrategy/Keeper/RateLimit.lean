/-
`src/api/server.ts`: the limiter of `GET /api/keepers`, a token bucket for
each client, and the sweep that forgets idle clients. Token counts are
exact, and times are in milliseconds.

A client that is forgotten comes back with a full bucket. It would have
one anyway: the sweep forgets after an hour, and a bucket fills up in a
minute.
-/
import Mathlib.Algebra.Order.Ring.Rat
import Mathlib.Logic.Function.Basic
import Mathlib.Tactic.NormNum
import Mathlib.Tactic.Ring
import Zstrategy.Keeper.Json
import Zstrategy.Lib.TokenBucket

namespace Zstrategy.Keeper

open Lib

open Function (update)

-- ================================================================== the clients

/-- `text || otherwise`. -/
def orElse (text : Option String) (otherwise : String) : String :=
  match text with
  | some s => if s = "" then otherwise else s
  | none => otherwise

structure KeepersRequest where
  /-- The header `x-forwarded-for`. -/
  forwardedFor : Option String
  remoteAddress : Option String
  /-- `Date.now()`. -/
  now : ℚ
  deriving DecidableEq

/-- The client a request counts for. -/
def KeepersRequest.ip (r : KeepersRequest) : String :=
  orElse (r.forwardedFor.map fun header =>
      String.ofList (trim (header.toList.takeWhile (· ≠ ','))))
    (orElse r.remoteAddress "unknown")

-- ================================================================== the limiter

abbrev Bucket := TokenBucket ℚ

/-- `keepersBuckets`. -/
abbrev Buckets := String → Option Bucket

def KEEPERS_RATE_PER_MIN : ℚ := 30

def BUCKET_TTL_MS : ℚ := 60 * 60 * 1000

/-- `keepersRateLimit`, and whether it calls `next`. -/
def keepersRateLimit (r : KeepersRequest) (m : Buckets) : Buckets × Bool :=
  let b := (m r.ip).getD ⟨KEEPERS_RATE_PER_MIN, r.now⟩
  let elapsedMs := r.now - b.updated
  let tokens :=
    min KEEPERS_RATE_PER_MIN (b.tokens + (elapsedMs * KEEPERS_RATE_PER_MIN) / 60000)
  if tokens < 1 then (update m r.ip (some ⟨tokens, r.now⟩), false)
  else (update m r.ip (some ⟨tokens - 1, r.now⟩), true)

/-- One run of the sweep. -/
def sweepBuckets (now : ℚ) (m : Buckets) : Buckets := fun ip =>
  (m ip).filter fun b => !decide (b.updated < now - BUCKET_TTL_MS)

inductive LimiterEvent where
  | request (r : KeepersRequest)
  | sweep (now : ℚ)
  deriving DecidableEq

namespace LimiterEvent

/-- When the clock was read. -/
def now : LimiterEvent → ℚ
  | request r => r.now
  | sweep now => now

def request? : LimiterEvent → Option KeepersRequest
  | request r => some r
  | sweep _ => none

def run (m : Buckets) : LimiterEvent → Buckets
  | request r => (keepersRateLimit r m).1
  | sweep now => sweepBuckets now m

end LimiterEvent

/-- The requests, in order, and whether each was admitted. -/
def answers : List LimiterEvent → Buckets → List (KeepersRequest × Bool)
  | [], _ => []
  | .request r :: es, m => (r, (keepersRateLimit r m).2) :: answers es (keepersRateLimit r m).1
  | .sweep now :: es, m => answers es (sweepBuckets now m)

/-- The same with no sweep. -/
def unswept : List KeepersRequest → Buckets → List (KeepersRequest × Bool)
  | [], _ => []
  | r :: rs, m => (r, (keepersRateLimit r m).2) :: unswept rs (keepersRateLimit r m).1

/-- No bucket yet. -/
def noBuckets : Buckets := fun _ => none

/-- A request reads the clock no earlier than what comes before it. -/
def Clocked (es : List LimiterEvent) : Prop :=
  es.Pairwise fun e e' => ∀ r, e' = .request r → e.now ≤ r.now

-- =================================================================== one bucket

/-- Tokens for a millisecond. -/
def ratePerMs : ℚ := KEEPERS_RATE_PER_MIN / 60000

variable {m m' : Buckets} {r : KeepersRequest} {rs : List KeepersRequest}
  {es : List LimiterEvent} {ip : String} {b : Bucket}

/-- The bucket that a request finds, or makes. -/
def found (r : KeepersRequest) (m : Buckets) : Bucket :=
  (m r.ip).getD (.full KEEPERS_RATE_PER_MIN r.now)

/-- The bucket is refilled at a rate that is not negative. -/
theorem ratePerMs_nonneg : 0 ≤ ratePerMs := by
  unfold ratePerMs KEEPERS_RATE_PER_MIN
  norm_num

/-- Its capacity is not negative. -/
theorem keepers_rate_nonneg : 0 ≤ KEEPERS_RATE_PER_MIN := by
  unfold KEEPERS_RATE_PER_MIN
  norm_num

/-- The limiter is a token bucket for each client, found or new. -/
theorem keepersRateLimit_eq (r : KeepersRequest) (m : Buckets) :
    keepersRateLimit r m
      = (update m r.ip (some ((found r m).ask KEEPERS_RATE_PER_MIN ratePerMs r.now).1),
        ((found r m).ask KEEPERS_RATE_PER_MIN ratePerMs r.now).2) := by
  have hrefill : ∀ x y : ℚ, x + y * KEEPERS_RATE_PER_MIN / 60000 = x + y * ratePerMs := by
    intro x y
    unfold ratePerMs
    rw [mul_div_assoc]
  unfold keepersRateLimit TokenBucket.ask TokenBucket.refill found TokenBucket.full
  dsimp only
  rw [hrefill]
  split <;> rfl

/-- A request leaves the bucket of its client. -/
theorem limit_self (r : KeepersRequest) (m : Buckets) : (keepersRateLimit r m).1 r.ip
    = some ((found r m).ask KEEPERS_RATE_PER_MIN ratePerMs r.now).1 := by
  rw [keepersRateLimit_eq]
  exact Function.update_self _ _ _

/-- It leaves the other buckets alone. -/
theorem limit_other (hip : ip ≠ r.ip) : (keepersRateLimit r m).1 ip = m ip := by
  rw [keepersRateLimit_eq]
  exact Function.update_of_ne hip _ _

/-- It is answered by its client's bucket. -/
theorem limit_admits (r : KeepersRequest) (m : Buckets) : (keepersRateLimit r m).2
    = ((found r m).ask KEEPERS_RATE_PER_MIN ratePerMs r.now).2 := by
  rw [keepersRateLimit_eq]

-- ==================================================================== in range

/-- The tokens of every bucket are within the cap, and no request of `es`
is older than a bucket. -/
structure Sound (m : Buckets) (es : List LimiterEvent) : Prop where
  range : ∀ ip b, m ip = some b → b.InRange KEEPERS_RATE_PER_MIN
  past : ∀ ip b, m ip = some b → ∀ r, LimiterEvent.request r ∈ es → b.updated ≤ r.now

/-- Without buckets all is in range. -/
theorem sound_noBuckets (es : List LimiterEvent) : Sound noBuckets es :=
  ⟨fun _ _ h => (Option.some_ne_none _ h.symm).elim,
    fun _ _ h => (Option.some_ne_none _ h.symm).elim⟩

/-- A request keeps all buckets in range. -/
theorem Sound.limit (hm : Sound m (.request r :: es)) (hclock : Clocked (.request r :: es)) :
    Sound (keepersRateLimit r m).1 es := by
  have hfound : (found r m).InRange KEEPERS_RATE_PER_MIN ∧ (found r m).updated ≤ r.now := by
    unfold found
    cases hb : m r.ip with
    | none => exact ⟨.full keepers_rate_nonneg, le_refl _⟩
    | some b => exact ⟨hm.range _ b hb, hm.past _ b hb r List.mem_cons_self⟩
  refine ⟨?_, ?_⟩
  · intro ip b hb
    by_cases heq : ip = r.ip
    · rw [heq, limit_self] at hb
      cases hb
      exact hfound.1.ask ratePerMs_nonneg keepers_rate_nonneg hfound.2
    · rw [limit_other heq] at hb
      exact hm.range ip b hb
  · intro ip b hb r' hr'
    by_cases heq : ip = r.ip
    · rw [heq, limit_self] at hb
      cases hb
      rw [TokenBucket.ask_updated]
      exact (List.pairwise_cons.1 hclock).1 _ hr' r' rfl
    · rw [limit_other heq] at hb
      exact hm.past ip b hb r' (List.mem_cons_of_mem _ hr')

/-- The sweep keeps a bucket if it was asked within the hour. -/
theorem sweepBuckets_some {now : ℚ} :
    sweepBuckets now m ip = some b ↔ m ip = some b ∧ now - BUCKET_TTL_MS ≤ b.updated := by
  unfold sweepBuckets
  rw [Option.filter_eq_some_iff]
  simp

/-- It keeps the buckets it leaves in range. -/
theorem Sound.sweep {now : ℚ} (hm : Sound m (.sweep now :: es)) :
    Sound (sweepBuckets now m) es :=
  ⟨fun ip b hb => hm.range ip b (sweepBuckets_some.1 hb).1,
    fun ip b hb r hr => hm.past ip b (sweepBuckets_some.1 hb).1 r (List.mem_cons_of_mem _ hr)⟩

/-- The buckets are in range at any time. -/
theorem sound_run (hm : Sound m es) (hclock : Clocked es) :
    Sound (es.foldl LimiterEvent.run m) [] := by
  induction es generalizing m with
  | nil => exact hm
  | cons e es ih =>
      have hrest := (List.pairwise_cons.1 hclock).2
      cases e with
      | request r => exact ih (hm.limit hclock) hrest
      | sweep now => exact ih hm.sweep hrest

-- ================================================================== forgetting

/-- `m` has forgotten some buckets of `m'`, each idle for an hour before
any request of `es`. -/
def Forgets (m m' : Buckets) (es : List LimiterEvent) : Prop :=
  ∀ ip, m ip = m' ip ∨ m ip = none ∧ ∃ b, m' ip = some b
    ∧ ∀ r, LimiterEvent.request r ∈ es → b.updated + BUCKET_TTL_MS ≤ r.now

/-- What is forgotten for the events to come is forgotten for the later
ones. -/
theorem Forgets.tail {e : LimiterEvent} (h : Forgets m m' (e :: es)) : Forgets m m' es := by
  intro ip
  rcases h ip with heq | ⟨hnone, b, hb, hidle⟩
  · exact Or.inl heq
  · exact Or.inr ⟨hnone, b, hb, fun r hr => hidle r (List.mem_cons_of_mem _ hr)⟩

/-- An hour fills a bucket. -/
theorem idle_fills {now : ℚ} (hidle : b.updated + BUCKET_TTL_MS ≤ now) :
    KEEPERS_RATE_PER_MIN ≤ (now - b.updated) * ratePerMs := by
  unfold BUCKET_TTL_MS at hidle
  unfold ratePerMs KEEPERS_RATE_PER_MIN
  linarith

/-- The request is told the same, and leaves the same bucket. -/
theorem Forgets.ask (h : Forgets m m' (.request r :: es)) (hm' : Sound m' (.request r :: es)) :
    (found r m).ask KEEPERS_RATE_PER_MIN ratePerMs r.now
      = (found r m').ask KEEPERS_RATE_PER_MIN ratePerMs r.now := by
  unfold found
  rcases h r.ip with heq | ⟨hnone, b, hb, hidle⟩
  · rw [heq]
  · rw [hnone, hb]
    have hfills := idle_fills (hidle r List.mem_cons_self)
    exact (TokenBucket.ask_of_idle (hm'.range _ b hb) hfills).symm

/-- A request is answered alike, and the two sides stay as they were to each
other. -/
theorem Forgets.limit (h : Forgets m m' (.request r :: es))
    (hm' : Sound m' (.request r :: es)) :
    Forgets (keepersRateLimit r m).1 (keepersRateLimit r m').1 es := by
  intro ip
  by_cases heq : ip = r.ip
  · rw [heq, limit_self, limit_self, h.ask hm']
    exact Or.inl rfl
  · rw [limit_other heq, limit_other heq]
    exact h.tail ip

/-- The sweep forgets buckets that are full by the time they are asked
again. -/
theorem Forgets.sweep {now : ℚ} (h : Forgets m m' (.sweep now :: es))
    (hclock : Clocked (.sweep now :: es)) : Forgets (sweepBuckets now m) m' es := by
  intro ip
  rcases h.tail ip with heq | ⟨hnone, hrest⟩
  · cases hswept : sweepBuckets now m ip with
    | some b =>
        rw [← heq, (sweepBuckets_some.1 hswept).1]
        exact Or.inl rfl
    | none =>
        cases hb : m ip with
        | none =>
            rw [← heq, hb]
            exact Or.inl rfl
        | some b =>
            refine Or.inr ⟨rfl, b, by rw [← heq, hb], ?_⟩
            intro r hr
            have hlate : now ≤ r.now := (List.pairwise_cons.1 hclock).1 _ hr r rfl
            have hold : ¬now - BUCKET_TTL_MS ≤ b.updated := by
              intro hyoung
              rw [sweepBuckets_some.2 ⟨hb, hyoung⟩] at hswept
              cases hswept
            linarith
  · refine Or.inr ⟨?_, hrest⟩
    cases hswept : sweepBuckets now m ip with
    | none => rfl
    | some b =>
        have hkept := (sweepBuckets_some.1 hswept).1
        rw [hnone] at hkept
        cases hkept

/-- The sweep changes no answer. -/
theorem answers_eq_unswept (h : Forgets m m' es) (hm' : Sound m' es) (hclock : Clocked es) :
    answers es m = unswept (es.filterMap LimiterEvent.request?) m' := by
  induction es generalizing m m' with
  | nil => rfl
  | cons e es ih =>
      have hrest := (List.pairwise_cons.1 hclock).2
      cases e with
      | request r =>
          show (r, (keepersRateLimit r m).2) :: answers es _ = (r, (keepersRateLimit r m').2) :: _
          rw [limit_admits, limit_admits, h.ask hm', ih (h.limit hm') (hm'.limit hclock) hrest]
      | sweep now =>
          have hkept : Sound m' es :=
            ⟨hm'.range, fun ip b hb r hr => hm'.past ip b hb r (List.mem_cons_of_mem _ hr)⟩
          exact ih (h.sweep hclock) hkept hrest

-- ================================================================== one client

/-- When a client asks. -/
def asksOf (ip : String) (rs : List KeepersRequest) : List ℚ :=
  (rs.filter fun r => r.ip = ip).map KeepersRequest.now

/-- Its admitted requests between `a` and `z`. -/
def admittedOf (ip : String) (a z : ℚ) (l : List (KeepersRequest × Bool)) : ℕ :=
  l.countP fun x => decide (x.1.ip = ip) && (decide (a ≤ x.1.now) && decide (x.1.now ≤ z) && x.2)

/-- A request of another client does not count. -/
theorem admittedOf_other {a z : ℚ} (hip : r.ip ≠ ip) :
    admittedOf ip a z (unswept (r :: rs) m)
      = admittedOf ip a z (unswept rs (keepersRateLimit r m).1) := by
  unfold admittedOf
  rw [unswept, List.countP_cons, decide_eq_false hip]
  rfl

/-- A request of the client is one of its asks. -/
theorem asksOf_self (hip : r.ip = ip) : asksOf ip (r :: rs) = r.now :: asksOf ip rs := by
  unfold asksOf
  rw [List.filter_cons_of_pos (by simpa using hip)]
  rfl

/-- A request of another client is none. -/
theorem asksOf_other (hip : r.ip ≠ ip) : asksOf ip (r :: rs) = asksOf ip rs := by
  unfold asksOf
  rw [List.filter_cons_of_neg (by simpa using hip)]

/-- The times between `a` and `z`. -/
def between (a z : ℚ) : ℚ → Bool := fun t => decide (a ≤ t) && decide (t ≤ z)

/-- The first request of a client is served from the bucket it finds. -/
theorem admittedOf_self {a z : ℚ} (hip : r.ip = ip) (hfound : found r m = b)
    (hrest : admittedOf ip a z (unswept rs (keepersRateLimit r m).1)
      = TokenBucket.admitted (between a z) (TokenBucket.answers KEEPERS_RATE_PER_MIN ratePerMs
        (asksOf ip rs) (b.ask KEEPERS_RATE_PER_MIN ratePerMs r.now).1)) :
    admittedOf ip a z (unswept (r :: rs) m)
      = TokenBucket.admitted (between a z)
        (TokenBucket.answers KEEPERS_RATE_PER_MIN ratePerMs (asksOf ip (r :: rs)) b) := by
  rw [asksOf_self hip, TokenBucket.admitted_cons, ← hrest]
  unfold admittedOf
  rw [unswept, List.countP_cons, limit_admits, hfound, decide_eq_true hip, Bool.true_and]
  rfl

/-- A client with a bucket is served from it, whatever the others do. -/
theorem admittedOf_bucket {a z : ℚ} (hb : m ip = some b) :
    admittedOf ip a z (unswept rs m) = TokenBucket.admitted (between a z)
      (TokenBucket.answers KEEPERS_RATE_PER_MIN ratePerMs (asksOf ip rs) b) := by
  induction rs generalizing m b with
  | nil => rfl
  | cons r rs ih =>
      by_cases hip : r.ip = ip
      · have hfound : found r m = b := by
          unfold found
          rw [hip, hb]
          rfl
        apply admittedOf_self hip hfound
        apply ih
        rw [← hip, limit_self, hfound]
      · rw [admittedOf_other hip, asksOf_other hip]
        apply ih
        rw [limit_other (Ne.symm hip)]
        exact hb

/-- A client without a bucket gets a full one with its first request. -/
theorem exists_bucket (hnone : m ip = none) (hts : (asksOf ip rs).Pairwise (· ≤ ·)) :
    ∃ b : Bucket, b.InRange KEEPERS_RATE_PER_MIN ∧ (∀ t ∈ asksOf ip rs, b.updated ≤ t)
      ∧ ∀ a z, admittedOf ip a z (unswept rs m) = TokenBucket.admitted (between a z)
        (TokenBucket.answers KEEPERS_RATE_PER_MIN ratePerMs (asksOf ip rs) b) := by
  induction rs generalizing m with
  | nil =>
      refine ⟨.full KEEPERS_RATE_PER_MIN 0, .full keepers_rate_nonneg, ?_, fun _ _ => rfl⟩
      intro t ht
      cases ht
  | cons r rs ih =>
      by_cases hip : r.ip = ip
      · have hfound : found r m = .full KEEPERS_RATE_PER_MIN r.now := by
          unfold found
          rw [hip, hnone]
          rfl
        refine ⟨.full KEEPERS_RATE_PER_MIN r.now, .full keepers_rate_nonneg, ?_, fun a z => ?_⟩
        · intro t ht
          rw [asksOf_self hip] at ht hts
          rcases List.mem_cons.1 ht with rfl | ht
          · exact le_refl _
          · exact (List.pairwise_cons.1 hts).1 t ht
        · apply admittedOf_self hip hfound
          apply admittedOf_bucket
          rw [← hip, limit_self, hfound]
      · rw [asksOf_other hip] at hts ⊢
        obtain ⟨b, hrange, hpast, hcount⟩ := ih ((limit_other (Ne.symm hip)).trans hnone) hts
        refine ⟨b, hrange, hpast, fun a z => ?_⟩
        rw [admittedOf_other hip]
        exact hcount a z

-- ==================================================================== the bound

/-- The clock does not go back, so the asks are in order. -/
theorem asksOf_ordered (hclock : Clocked es) :
    (asksOf ip (es.filterMap LimiterEvent.request?)).Pairwise (· ≤ ·) := by
  unfold asksOf
  rw [List.pairwise_map]
  apply List.Pairwise.filter
  rw [List.pairwise_filterMap]
  refine hclock.imp ?_
  intro e e' hle r hr r' hr'
  cases e with
  | sweep now => cases hr
  | request q =>
      cases hr
      cases e' with
      | sweep now => cases hr'
      | request q' =>
          cases hr'
          exact hle _ rfl

/-- In any order of requests and sweeps, no client is admitted more often
than the cap and the rate allow, in any window; buckets stay in range; and
the sweep changes no answer. -/
theorem rate_enforced (es : List LimiterEvent) (hclock : Clocked es) :
    (∀ ip a z, a ≤ z →
      (admittedOf ip a z (answers es noBuckets) : ℚ) ≤ 30 + (z - a) * 30 / 60000)
    ∧ (∀ ip b, es.foldl LimiterEvent.run noBuckets ip = some b → 0 ≤ b.tokens ∧ b.tokens ≤ 30)
    ∧ answers es noBuckets = unswept (es.filterMap LimiterEvent.request?) noBuckets := by
  have hsound := sound_noBuckets es
  have hanswers : answers es noBuckets = unswept (es.filterMap LimiterEvent.request?) noBuckets :=
    answers_eq_unswept (fun _ => Or.inl rfl) hsound hclock
  refine ⟨?_, (sound_run hsound hclock).range, hanswers⟩
  intro ip a z haz
  have hts : (asksOf ip (es.filterMap LimiterEvent.request?)).Pairwise (· ≤ ·) :=
    asksOf_ordered hclock
  have hnone : noBuckets ip = none := rfl
  obtain ⟨b, hrange, hpast, hcount⟩ := exists_bucket hnone hts
  have hbound := TokenBucket.admitted_between (p := between a z) ratePerMs_nonneg
    keepers_rate_nonneg hts hrange hpast haz fun t ht => by simpa [between] using ht
  have hrate : KEEPERS_RATE_PER_MIN + (z - a) * ratePerMs = 30 + (z - a) * 30 / 60000 := by
    unfold ratePerMs KEEPERS_RATE_PER_MIN
    ring
  rw [hrate] at hbound
  rw [hanswers, hcount]
  exact hbound

-- ===================================================================== a sample

/-- Events in the order of their times are clocked. -/
theorem clocked_of_ordered (h : es.Pairwise fun e e' => e.now ≤ e'.now) : Clocked es := by
  refine h.imp ?_
  intro e e' hle r hr
  rw [hr] at hle
  exact hle

/-- A burst of 32, another client, and a request after the burst's bucket
was forgotten. -/
def sampleTraffic : List LimiterEvent :=
  List.replicate 32 (.request ⟨some "10.0.0.1, 10.0.0.9", some "127.0.0.1", 1000⟩)
    ++ [.request ⟨none, some "10.0.0.2", 1500⟩, .sweep 3700000,
      .request ⟨some " 10.0.0.1", none, 3700000⟩]

/-- Of 31 requests at once 30 are admitted, and one more after an hour. -/
theorem rate_enforced_sample :
    admittedOf "10.0.0.1" 1000 1000 (answers sampleTraffic noBuckets) = 30
      ∧ admittedOf "10.0.0.1" 1000 3700000 (answers sampleTraffic noBuckets) = 31
      ∧ (31 : ℚ) ≤ 30 + (3700000 - 1000) * 30 / 60000
      ∧ ∃ b, sampleTraffic.foldl LimiterEvent.run noBuckets "10.0.0.1" = some b
        ∧ b = ⟨29, 3700000⟩ ∧ 0 ≤ b.tokens ∧ b.tokens ≤ 30 := by
  have hclock : Clocked sampleTraffic := clocked_of_ordered (by decide +kernel)
  have hcount : admittedOf "10.0.0.1" 1000 3700000 (answers sampleTraffic noBuckets) = 31 := by
    decide +kernel
  obtain ⟨hrate, hrange, -⟩ := rate_enforced sampleTraffic hclock
  have hlimit := hrate "10.0.0.1" 1000 3700000 (by norm_num)
  have hbucket : sampleTraffic.foldl LimiterEvent.run noBuckets "10.0.0.1"
      = some ⟨29, 3700000⟩ := by decide +kernel
  rw [hcount] at hlimit
  exact ⟨by decide +kernel, hcount, by exact_mod_cast hlimit, _, hbucket, rfl,
    hrange _ _ hbucket⟩

end Zstrategy.Keeper
