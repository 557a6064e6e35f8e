/-
A cache beside a source that changes. A request looks into the cache; if
it finds nothing that is still valid it reads the source, fills the cache
for `ttl`, and answers what it read. Any number of requests run at once,
any of their calls may fail, and the cache may lose an entry at any time.

A fill may come long after its read, so an entry can be older than `ttl`,
and it may replace a newer one. What an answer is worth depends on the
delay between a read and its fill: within `ttl` and the longest such delay
before it was given, the answer was right (`answered_as_of`).
-/
import Mathlib.Algebra.Order.Ring.Int
import Mathlib.Logic.Function.Basic
import Zstrategy.Lib.Machine

namespace Zstrategy.Lib

open Function (update)

/-- `τ` is the source's state, asked for `κ` and answering `ν`; the cache's
keys are `χ`. -/
structure CacheAside (τ κ χ ν : Type) where
  read : τ → κ → ν
  key : κ → χ
  ttl : ℕ

namespace CacheAside

variable {τ κ χ ν : Type}

/-- Where a request stands. -/
inductive Request (κ ν : Type) where
  | asked (k : κ)
  | missed (k : κ)
  /-- It read `v` at the time `read`, and has not filled the cache. -/
  | loaded (k : κ) (v : ν) (read : ℤ)
  /-- It answers `v`, which it found at `time`. -/
  | answered (k : κ) (v : ν) (time : ℤ)
  | failed (k : κ)

structure State (τ κ χ ν : Type) where
  now : ℤ
  source : τ
  /-- What is cached, and until when. -/
  cache : χ → Option (ν × ℤ)
  requests : List (Request κ ν)

inductive Step (τ κ χ : Type) where
  | wait (d : ℕ)
  | change (source : τ)
  | evict (x : χ)
  | ask (k : κ)
  /-- The `i`-th request makes its next call, which may fail. -/
  | run (i : ℕ) (fault : Bool)

variable (c : CacheAside τ κ χ ν) (st : State τ κ χ ν)

def State.put (i : ℕ) (r : Request κ ν) : State τ κ χ ν :=
  { st with requests := st.requests.set i r }

/-- What the cache has for `k`. -/
def look (k : κ) : Option ν :=
  (st.cache (c.key k)).bind fun entry => if st.now < entry.2 then some entry.1 else none

variable [DecidableEq χ]

/-- The next call of the `i`-th request. -/
def proceed (i : ℕ) (fault : Bool) : Request κ ν → Option (State τ κ χ ν)
  | .asked k =>
      match if fault then none else c.look st k with
      | some v => some (st.put i (.answered k v st.now))
      | none => some (st.put i (.missed k))
  | .missed k =>
      some (st.put i (if fault then .failed k else .loaded k (c.read st.source k) st.now))
  | .loaded k v read =>
      some { st.put i (.answered k v read) with
        cache := if fault then st.cache
          else update st.cache (c.key k) (some (v, st.now + c.ttl)) }
  | .answered .. => none
  | .failed _ => none

def step : Step τ κ χ → State τ κ χ ν → Option (State τ κ χ ν)
  | .wait d, st => some { st with now := st.now + d }
  | .change source, st => some { st with source := source }
  | .evict x, st => some { st with cache := update st.cache x none }
  | .ask k, st => some { st with requests := st.requests ++ [.asked k] }
  | .run i fault, st => (st.requests[i]?).bind (c.proceed st i fault)

def machine : Machine (State τ κ χ ν) (Step τ κ χ) := ⟨c.step⟩

/-- The cache is filled within `delay` of the read. -/
def Prompt (delay : ℕ) (st : State τ κ χ ν) : Step τ κ χ → Prop
  | .run i _ => ∀ k v read, st.requests[i]? = some (.loaded k v read) → st.now ≤ read + delay
  | _ => True

/-- Nothing is cached and nobody asks. -/
def State.start (source : τ) (now : ℤ) : State τ κ χ ν := ⟨now, source, fun _ => none, []⟩

-- ==================================================================== the past

variable {c} {st} {st₀ st' : State τ κ χ ν} {delay : ℕ} {k : κ} {v : ν} {t u : ℤ}

omit [DecidableEq χ] in
theorem look_of_cached {e : ℤ} (h : st.cache (c.key k) = some (v, e)) (hnow : st.now < e) :
    c.look st k = some v := by
  unfold look
  rw [h]
  exact if_pos hnow

/-- A request that finds its answer. -/
theorem step_hit {i : ℕ} (hr : st.requests[i]? = some (.asked k)) (hlook : c.look st k = some v) :
    c.step (.run i false) st = some (st.put i (.answered k v st.now)) := by
  simp [step, hr, proceed, hlook]

theorem now_step {e : Step τ κ χ} (h : c.step e st = some st') : st.now ≤ st'.now := by
  cases e with
  | wait d =>
      cases h
      show st.now ≤ st.now + d
      omega
  | change | evict | ask =>
      cases h
      exact le_refl _
  | run i fault =>
      obtain ⟨r, -, hr⟩ := Option.bind_eq_some_iff.1 h
      cases r with
      | asked k =>
          simp only [proceed] at hr
          split at hr <;> (cases hr; exact le_refl _)
      | missed k | loaded k v read =>
          cases hr
          exact le_refl _
      | answered | failed => cases hr

/-- The clock never goes back. -/
theorem now_run (h : c.machine.Run (Prompt delay) st st') : st.now ≤ st'.now := by
  induction h with
  | refl => exact le_refl _
  | tail e _ _ hstep ih => exact ih.trans (now_step hstep)

/-- The source gave `v` for `k` at a moment of the run between `t` and `u`. -/
def AsOf (c : CacheAside τ κ χ ν) (delay : ℕ) (st₀ st : State τ κ χ ν) (k : κ) (v : ν)
    (t u : ℤ) : Prop :=
  ∃ st', c.machine.Run (Prompt delay) st₀ st' ∧ c.machine.Run (Prompt delay) st' st
    ∧ c.read st'.source k = v ∧ t ≤ st'.now ∧ st'.now ≤ u

theorem AsOf.wider {t' u' : ℤ} (h : AsOf c delay st₀ st k v t u) (ht : t' ≤ t) (hu : u ≤ u') :
    AsOf c delay st₀ st k v t' u' := by
  obtain ⟨past, hbefore, hafter, hread, hlow, hhigh⟩ := h
  exact ⟨past, hbefore, hafter, hread, ht.trans hlow, hhigh.trans hu⟩

theorem AsOf.later {e : Step τ κ χ} (h : AsOf c delay st₀ st k v t u)
    (he : Prompt delay st e) (hstep : c.step e st = some st') :
    AsOf c delay st₀ st' k v t u := by
  obtain ⟨past, hbefore, hafter, hrest⟩ := h
  exact ⟨past, hbefore, hafter.tail e he hstep, hrest⟩

/-- What is cached, read or answered was once right. -/
structure Dated (c : CacheAside τ κ χ ν) (delay : ℕ) (st₀ st : State τ κ χ ν) : Prop where
  cached : ∀ k v e, st.cache (c.key k) = some (v, e) →
    AsOf c delay st₀ st k v (e - (c.ttl + delay)) st.now
  loaded : ∀ k v read, Request.loaded k v read ∈ st.requests →
    AsOf c delay st₀ st k v read read
  answered : ∀ k v time, Request.answered k v time ∈ st.requests →
    AsOf c delay st₀ st k v (time - (c.ttl + delay)) time

/-- A step that touches neither the cache nor the requests. -/
theorem Dated.same {e : Step τ κ χ} (hd : Dated c delay st₀ st) (he : Prompt delay st e)
    (hstep : c.step e st = some st')
    (hcache : ∀ x entry, st'.cache x = some entry → st.cache x = some entry)
    (hrequests : ∀ r ∈ st'.requests, r ∈ st.requests ∨ ∃ k, r = .asked k) :
    Dated c delay st₀ st' := by
  have hnow := now_step hstep
  refine ⟨fun k v x hx => ?_, fun k v read hr => ?_, fun k v time hr => ?_⟩
  · exact ((hd.cached k v x (hcache _ _ hx)).later he hstep).wider (le_refl _) hnow
  · rcases hrequests _ hr with hold | ⟨k', hk'⟩
    · exact (hd.loaded k v read hold).later he hstep
    · cases hk'
  · rcases hrequests _ hr with hold | ⟨k', hk'⟩
    · exact (hd.answered k v time hold).later he hstep
    · cases hk'

omit [DecidableEq χ] in
theorem mem_put {i : ℕ} {r r' : Request κ ν} (h : r' ∈ (st.put i r).requests) :
    r' ∈ st.requests ∨ r' = r :=
  List.mem_or_eq_of_mem_set h

/-- A call that leaves the cache alone: what the request has or answers
from now on was right. -/
theorem Dated.put {e : Step τ κ χ} {i : ℕ} {r : Request κ ν} (hd : Dated c delay st₀ st)
    (he : Prompt delay st e) (hstep : c.step e st = some (st.put i r))
    (hloaded : ∀ k v read, r = .loaded k v read → AsOf c delay st₀ st k v read read)
    (hanswered : ∀ k v time, r = .answered k v time →
      AsOf c delay st₀ st k v (time - (c.ttl + delay)) time) :
    Dated c delay st₀ (st.put i r) := by
  refine ⟨fun k v x hx => (hd.cached k v x hx).later he hstep, fun k v read hr => ?_,
    fun k v time hr => ?_⟩
  · rcases mem_put hr with hold | hnew
    · exact (hd.loaded k v read hold).later he hstep
    · exact (hloaded k v read hnew.symm).later he hstep
  · rcases mem_put hr with hold | hnew
    · exact (hd.answered k v time hold).later he hstep
    · exact (hanswered k v time hnew.symm).later he hstep

omit [DecidableEq χ] in
/-- What is valid expires later. -/
theorem cached_of_look (h : c.look st k = some v) :
    ∃ e, st.cache (c.key k) = some (v, e) ∧ st.now < e := by
  obtain ⟨entry, hentry, hvalid⟩ := Option.bind_eq_some_iff.1 h
  split at hvalid
  · rename_i hlt
    cases hvalid
    exact ⟨entry.2, hentry, hlt⟩
  · cases hvalid

/-- A filled cache: nothing in it is older than its read. -/
theorem Dated.fill {i : ℕ} (hinj : Function.Injective c.key) (hd : Dated c delay st₀ st)
    (hr : st.requests[i]? = some (.loaded k v t)) (he : Prompt delay st (.run i false))
    (hstep : c.step (.run i false) st = some st') {k' : κ} {v' : ν} {x : ℤ}
    (hx : st'.cache (c.key k') = some (v', x)) :
    AsOf c delay st₀ st' k' v' (x - (c.ttl + delay)) st'.now := by
  have hprompt : st.now ≤ t + delay := he k v t hr
  have hread : AsOf c delay st₀ st k v t t := hd.loaded k v t (List.mem_of_getElem? hr)
  have hpast : t ≤ st.now := by
    obtain ⟨past, -, hafter, -, hlow, -⟩ := hread
    exact hlow.trans (now_run hafter)
  have hcache : st' = { st.put i (.answered k v t) with
      cache := update st.cache (c.key k) (some (v, st.now + c.ttl)) } := by
    have hproceed : c.proceed st i false (.loaded k v t) = some st' := by
      rw [← hstep]
      simp only [CacheAside.step, hr, Option.bind_some]
    cases hproceed
    rfl
  have hnow : st'.now = st.now := by rw [hcache]; rfl
  have hentry : update st.cache (c.key k) (some (v, st.now + (c.ttl : ℤ))) (c.key k')
      = some (v', x) := by
    rw [← hx, hcache]
  by_cases hkey : c.key k' = c.key k
  · rw [hkey, Function.update_self] at hentry
    cases hentry
    rw [hinj hkey, hnow]
    exact (hread.later he hstep).wider (by omega) hpast
  · rw [Function.update_of_ne hkey] at hentry
    rw [hnow]
    exact (hd.cached k' v' x hentry).later he hstep

/-- One request's next call. -/
theorem Dated.run {i : ℕ} {fault : Bool} (hinj : Function.Injective c.key)
    (hbefore : c.machine.Run (Prompt delay) st₀ st) (hd : Dated c delay st₀ st)
    (he : Prompt delay st (.run i fault)) (hstep : c.step (.run i fault) st = some st') :
    Dated c delay st₀ st' := by
  obtain ⟨r, hr, hproceed⟩ := Option.bind_eq_some_iff.1 hstep
  cases r with
  | asked k =>
      simp only [proceed] at hproceed
      split at hproceed
      · rename_i v hlook
        cases hproceed
        refine hd.put he hstep (fun _ _ _ h => by cases h) fun k' v' time h => ?_
        cases h
        cases fault with
        | true => cases hlook
        | false =>
            obtain ⟨e, hentry, hvalid⟩ := cached_of_look hlook
            exact (hd.cached k v e hentry).wider (by omega) (le_refl _)
      · cases hproceed
        exact hd.put he hstep (fun _ _ _ h => by cases h) fun _ _ _ h => by cases h
  | missed k =>
      cases hproceed
      refine hd.put he hstep (fun k' v read h => ?_) fun k' v time h => ?_
      · cases fault with
        | true => cases h
        | false =>
            cases h
            exact ⟨st, hbefore, .refl st, rfl, le_refl _, le_refl _⟩
      · cases fault <;> cases h
  | loaded k v read =>
      have hread : AsOf c delay st₀ st k v read read :=
        hd.loaded k v read (List.mem_of_getElem? hr)
      refine ⟨fun k' v' x hx => ?_, fun k' v' read' hr' => ?_, fun k' v' time hr' => ?_⟩
      · cases fault with
        | true =>
            cases hproceed
            exact (hd.cached k' v' x hx).later he hstep
        | false => exact hd.fill hinj hr he hstep hx
      · cases hproceed
        rcases mem_put hr' with hold | hnew
        · exact (hd.loaded k' v' read' hold).later he hstep
        · cases hnew
      · cases hproceed
        rcases mem_put hr' with hold | hnew
        · exact (hd.answered k' v' time hold).later he hstep
        · cases hnew
          exact (hread.later he hstep).wider (by omega) (le_refl _)
  | answered | failed => cases hproceed

theorem Dated.step {e : Step τ κ χ} (hinj : Function.Injective c.key)
    (hbefore : c.machine.Run (Prompt delay) st₀ st) (hd : Dated c delay st₀ st)
    (he : Prompt delay st e) (hstep : c.step e st = some st') : Dated c delay st₀ st' := by
  cases e with
  | wait d | change source =>
      refine hd.same he hstep ?_ ?_
      · cases hstep
        exact fun _ _ h => h
      · cases hstep
        exact fun r hr => Or.inl hr
  | evict x =>
      refine hd.same he hstep (fun y entry h => ?_) ?_
      · cases hstep
        by_cases hy : y = x
        · rw [hy] at h
          have hnone : update st.cache x none x = some entry := h
          rw [Function.update_self] at hnone
          cases hnone
        · exact (Function.update_of_ne hy _ _).symm.trans h
      · cases hstep
        exact fun r hr => Or.inl hr
  | ask k =>
      refine hd.same he hstep ?_ fun r hr => ?_
      · cases hstep
        exact fun _ _ h => h
      · cases hstep
        rcases List.mem_append.1 hr with hold | hnew
        · exact Or.inl hold
        · exact Or.inr ⟨k, List.mem_singleton.1 hnew⟩
  | run i fault => exact hd.run hinj hbefore he hstep

theorem dated_run {source : τ} {now : ℤ} (hinj : Function.Injective c.key)
    (hrun : c.machine.Run (Prompt delay) (.start source now) st) :
    Dated c delay (.start source now) st := by
  have hinv : c.machine.Run (Prompt delay) (.start source now) st
      ∧ Dated c delay (.start source now) st := by
    refine hrun.inv (I := fun st => c.machine.Run (Prompt delay) (.start source now) st
      ∧ Dated c delay (.start source now) st) ?_ ⟨.refl _, ?_⟩
    · intro st e st' hst he hstep
      exact ⟨hst.1.tail e he hstep, hst.2.step hinj hst.1 he hstep⟩
    · refine ⟨fun _ _ _ h => ?_, fun _ _ _ h => ?_, fun _ _ _ h => ?_⟩ <;> cases h
  exact hinv.2

/-- Every answer was right at a moment no further back than `ttl` and the
delay of the fills. -/
theorem answered_as_of {source : τ} {now : ℤ} {time : ℤ} (hinj : Function.Injective c.key)
    (hrun : c.machine.Run (Prompt delay) (.start source now) st)
    (hanswer : .answered k v time ∈ st.requests) :
    AsOf c delay (.start source now) st k v (time - (c.ttl + delay)) time :=
  (dated_run hinj hrun).answered k v time hanswer

end CacheAside

end Zstrategy.Lib
