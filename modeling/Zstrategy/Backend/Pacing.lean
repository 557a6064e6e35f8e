/-
How far apart are two requests to the keeper for one hash? A monitor sends
at most one: it is cancelled before its request goes out. So the distance
is that between two monitors, and there nothing keeps it: `monitorLoop`
evaluates as soon as it starts, and a rejected trigger starts one at once.

A goroutine is ready for a hash if it may come to post it without another
loop beginning first. As long as a loop begins only when the hash has
rested, with no trigger of an earlier loop still under way, at most one
goroutine is ready for a hash at any time, and the hash has rested when one
is.
-/
import Zstrategy.Backend.Finality

namespace Zstrategy.Backend

open Lib

-- ============================================================== ready goroutines

/-- The goroutine is on its way to a request for `h` that a stop no longer
holds up. -/
def Routine.Triggers (h : String) : Routine → Prop
  | .sent l .met | .wrote l .met => l.hash = h
  | .trigger s _ => s.commitmentHash = h
  | _ => False

instance instDecidableTriggers (h : String) (j : Routine) : Decidable (j.Triggers h) :=
  match j with
  | .sent l .met | .wrote l .met => inferInstanceAs (Decidable (l.hash = h))
  | .trigger s _ => inferInstanceAs (Decidable (s.commitmentHash = h))
  | .sent _ .expired | .wrote _ .expired | .begin .. | .select _ | .evaluate _ | .write .. =>
      inferInstanceAs (Decidable False)
  | .posted _ | .rollback _ | .resume _ | .idle _ | .find _ | .reset .. | .list | .startAll ..
  | .registered _ | .stopFirst _ | .finish .. | .finished _ | .ended =>
      inferInstanceAs (Decidable False)

namespace MonitorState

/-- It may come to a request for `h`. -/
def Ready (st : MonitorState) (h : String) : Routine → Prop
  | .select l | .evaluate l | .write l .met =>
      l.hash = h ∧ st.monitors.cancelled l.ctx = false
  | j => j.Triggers h

/-- A tick has passed since the last request for `h`. -/
def Rested (st : MonitorState) (h : String) : Prop :=
  ∀ p ∈ st.posts, p.request.commitmentHash = h → p.time + monitorTickInterval ≤ st.now

/-- A loop that is not stopped yet begins, with its first evaluation, only
when its hash has rested and no earlier trigger for it is under way. -/
def BeginsRested (st : MonitorState) (e : MonitorStep) : Prop :=
  ∀ i fault pairPrice reply ctx s, e = .run i fault pairPrice reply →
    st.routines[i]? = some (.begin ctx s) → st.monitors.cancelled ctx = false →
    st.Rested s.commitmentHash ∧ ∀ j ∈ st.routines, ¬ j.Triggers s.commitmentHash

/-- Requests for one hash are a tick apart. -/
def Spaced (st : MonitorState) : Prop :=
  st.posts.Pairwise fun p q : Post =>
    p.request.commitmentHash = q.request.commitmentHash →
      p.time + monitorTickInterval ≤ q.time

/-- The invariant. -/
structure Paced (st : MonitorState) : Prop where
  /-- Contexts that goroutines hold were made by a start. -/
  made : ∀ (n : ℕ) j ctx h, st.routines[n]? = some j → j.monitor = some (ctx, h) →
    ctx < st.monitors.goroutines.length
  /-- A context belongs to one goroutine. -/
  own : ∀ (n n' : ℕ) j j' ctx h h', st.routines[n]? = some j → st.routines[n']? = some j' →
    j.monitor = some (ctx, h) → j'.monitor = some (ctx, h') → n = n'
  /-- One goroutine is ready for a hash. -/
  alone : ∀ (n n' : ℕ) j j' h, st.routines[n]? = some j → st.routines[n']? = some j' →
    st.Ready h j → st.Ready h j' → n = n'
  rested : ∀ (n : ℕ) j h, st.routines[n]? = some j → st.Ready h j → st.Rested h
  spaced : st.Spaced

variable {hasRegistry : Bool} {st st' : MonitorState} {i : ℕ} {j k : Routine} {h : String}

theorem Ready.before (halive : ∀ ctx, st'.monitors.cancelled ctx = false →
    st.monitors.cancelled ctx = false) (hr : st'.Ready h j) : st.Ready h j := by
  cases j with
  | select l => exact ⟨hr.1, halive l.ctx hr.2⟩
  | evaluate l => exact ⟨hr.1, halive l.ctx hr.2⟩
  | write l v =>
      cases v with
      | met => exact ⟨hr.1, halive l.ctx hr.2⟩
      | expired => exact hr
  | _ => exact hr

/-- A ready goroutine triggers, or is a living monitor. -/
theorem Ready.cases (hr : st.Ready h j) :
    j.Triggers h ∨ ∃ ctx, j.monitor = some (ctx, h) ∧ st.monitors.cancelled ctx = false := by
  cases j with
  | select l => exact Or.inr ⟨l.ctx, by rw [← hr.1]; rfl, hr.2⟩
  | evaluate l => exact Or.inr ⟨l.ctx, by rw [← hr.1]; rfl, hr.2⟩
  | write l v =>
      cases v with
      | met => exact Or.inr ⟨l.ctx, by rw [← hr.1]; rfl, hr.2⟩
      | expired => exact hr.elim
  | _ => exact Or.inl hr

/-- Two living monitors of one hash are one. -/
theorem Paced.living (hp : st.Paced) (ht : st.TracksAll) {n n' : ℕ} {ctx ctx' : ℕ}
    (hj : st.routines[n]? = some j) (hk : st.routines[n']? = some k)
    (hm : j.monitor = some (ctx, h)) (hm' : k.monitor = some (ctx', h))
    (halive : st.monitors.cancelled ctx = false)
    (halive' : st.monitors.cancelled ctx' = false) : n = n' := by
  obtain ⟨kind, hstop⟩ := ht j (List.mem_of_getElem? hj) ctx h hm halive
  obtain ⟨kind', hstop'⟩ := ht k (List.mem_of_getElem? hk) ctx' h hm' halive'
  rw [hstop] at hstop'
  cases hstop'
  exact hp.own n n' j k ctx h h hj hk hm hm'

-- ============================================================== what keeps the pace

/-- No goroutine gains a context or becomes ready. -/
structure Cools (st st' : MonitorState) : Prop where
  routine : ∀ (n : ℕ) k, st'.routines[n]? = some k → ∃ j, st.routines[n]? = some j
    ∧ (∀ ctx h, k.monitor = some (ctx, h) → ∃ h', j.monitor = some (ctx, h'))
    ∧ ∀ h, st'.Ready h k → st.Ready h j
  goroutines : st'.monitors.goroutines.length = st.monitors.goroutines.length
  posts : st'.posts = st.posts
  now : st.now ≤ st'.now

theorem Cools.paced (hc : Cools st st') (hp : st.Paced) : st'.Paced := by
  refine ⟨?_, ?_, ?_, ?_, ?_⟩
  · intro n k ctx h hk hm
    obtain ⟨j, hj, hmon, -⟩ := hc.routine n k hk
    obtain ⟨h', hm'⟩ := hmon ctx h hm
    rw [hc.goroutines]
    exact hp.made n j ctx h' hj hm'
  · intro n n' k k' ctx h h' hk hk' hm hm'
    obtain ⟨j, hj, hmon, -⟩ := hc.routine n k hk
    obtain ⟨j', hj', hmon', -⟩ := hc.routine n' k' hk'
    obtain ⟨g, hg⟩ := hmon ctx h hm
    obtain ⟨g', hg'⟩ := hmon' ctx h' hm'
    exact hp.own n n' j j' ctx g g' hj hj' hg hg'
  · intro n n' k k' h hk hk' hr hr'
    obtain ⟨j, hj, -, hready⟩ := hc.routine n k hk
    obtain ⟨j', hj', -, hready'⟩ := hc.routine n' k' hk'
    exact hp.alone n n' j j' h hj hj' (hready h hr) (hready' h hr')
  · intro n k h hk hr p hpost heq
    obtain ⟨j, hj, -, hready⟩ := hc.routine n k hk
    rw [hc.posts] at hpost
    exact le_trans (hp.rested n j h hj (hready h hr) p hpost heq) hc.now
  · unfold Spaced
    rw [hc.posts]
    exact hp.spaced

theorem Cools.trans {st'' : MonitorState} (hc : Cools st st') (hc' : Cools st' st'') :
    Cools st st'' := by
  refine ⟨?_, hc'.goroutines.trans hc.goroutines, hc'.posts.trans hc.posts,
    le_trans hc.now hc'.now⟩
  intro n k hk
  obtain ⟨j', hj', hmon', hready'⟩ := hc'.routine n k hk
  obtain ⟨j, hj, hmon, hready⟩ := hc.routine n j' hj'
  refine ⟨j, hj, ?_, fun h hr => hready h (hready' h hr)⟩
  intro ctx h hm
  obtain ⟨h', hm'⟩ := hmon' ctx h hm
  exact hmon ctx h' hm'

theorem getElem?_put {n : ℕ} (hk : (st.put i j).routines[n]? = some k) :
    n = i ∧ k = j ∨ n ≠ i ∧ st.routines[n]? = some k := by
  by_cases hn : n = i
  · subst hn
    have hget : (st.routines.set n j)[n]? = some k := hk
    obtain ⟨hlt, -⟩ := List.getElem?_eq_some_iff.1 hget
    rw [List.length_set] at hlt
    rw [List.getElem?_set_self hlt] at hget
    exact Or.inl ⟨rfl, (Option.some.inj hget).symm⟩
  · have hget : (st.routines.set i j)[n]? = some k := hk
    rw [List.getElem?_set_ne (Ne.symm hn)] at hget
    exact Or.inr ⟨hn, hget⟩

/-- A goroutine goes on without gaining anything. -/
theorem Cools.put (hj : st.routines[i]? = some j)
    (hmon : ∀ ctx h, k.monitor = some (ctx, h) → ∃ h', j.monitor = some (ctx, h'))
    (hready : ∀ h, st.Ready h k → st.Ready h j) : Cools st (st.put i k) := by
  refine ⟨?_, rfl, rfl, le_refl st.now⟩
  intro n k' hk'
  rcases getElem?_put hk' with ⟨rfl, rfl⟩ | ⟨-, hold⟩
  · exact ⟨j, hj, hmon, hready⟩
  · exact ⟨k', hold, fun _ h hm => ⟨h, hm⟩, fun _ hr => hr⟩

/-- It keeps its context. -/
theorem Cools.stay (hj : st.routines[i]? = some j) (hmon : k.monitor = j.monitor)
    (hready : ∀ h, st.Ready h k → st.Ready h j) : Cools st (st.put i k) := by
  refine Cools.put hj ?_ hready
  intro ctx h hm
  exact ⟨h, hmon ▸ hm⟩

/-- It leaves the monitors. -/
theorem Cools.put_cold (hj : st.routines[i]? = some j) (hmon : k.monitor = none)
    (hready : ∀ h, ¬ k.Triggers h) : Cools st (st.put i k) := by
  refine Cools.put hj ?_ ?_
  · intro ctx h hm
    rw [hmon] at hm
    cases hm
  · intro h hr
    rcases hr.cases with ht | ⟨ctx, hm, -⟩
    · exact absurd ht (hready h)
    · rw [hmon] at hm
      cases hm

theorem Cools.stop (c : String) : Cools st (st.stop c) := by
  refine ⟨?_, ?_, rfl, le_refl st.now⟩
  · intro n k hk
    exact ⟨k, hk, fun _ h hm => ⟨h, hm⟩, fun h hr =>
      hr.before fun _ => Monitors.stopMonitoring_alive⟩
  · show (st.monitors.stopMonitoring c).goroutines.length = _
    unfold Monitors.stopMonitoring
    cases st.monitors.stopChans c <;> rfl

theorem Cools.crash : Cools st st.crash := by
  refine ⟨?_, rfl, rfl, le_refl st.now⟩
  intro n k hk
  cases hk

theorem Cools.slice (hc : Cools st st') : Cools st (st.slice h st') := by
  rcases slice_cases st h st' with ⟨-, hs⟩ | hs
  · rw [hs]
    exact hc
  · rw [hs]
    exact Cools.crash

theorem getElem?_spawn {n : ℕ} (hk : (st.spawn j).routines[n]? = some k) :
    n = st.routines.length ∧ k = j ∨ st.routines[n]? = some k := by
  have hget : (st.routines ++ [j])[n]? = some k := hk
  rcases Nat.lt_trichotomy n st.routines.length with hlt | heq | hgt
  · rw [List.getElem?_append_left hlt] at hget
    exact Or.inr hget
  · subst heq
    rw [List.getElem?_concat_length] at hget
    exact Or.inl ⟨rfl, (Option.some.inj hget).symm⟩
  · have hnone : (st.routines ++ [j])[n]? = none := by
      rw [List.getElem?_eq_none_iff, List.length_append, List.length_singleton]
      omega
    rw [hnone] at hget
    cases hget

/-- A goroutine that is no monitor and triggers nothing starts. -/
theorem Paced.spawn (hp : st.Paced) (hmon : j.monitor = none) (hready : ∀ h, ¬ j.Triggers h) :
    (st.spawn j).Paced := by
  have hcold : ∀ h, ¬ st.Ready h j := by
    intro h hr
    rcases hr.cases with ht | ⟨ctx, hm, -⟩
    · exact hready h ht
    · rw [hmon] at hm
      cases hm
  have hold : ∀ {n : ℕ} {k : Routine} {ctx : ℕ} {h : String},
      (st.spawn j).routines[n]? = some k → k.monitor = some (ctx, h) →
      st.routines[n]? = some k := by
    intro n k ctx h hk hm
    rcases getElem?_spawn hk with ⟨-, rfl⟩ | hold
    · rw [hmon] at hm
      cases hm
    · exact hold
  have hold' : ∀ {n : ℕ} {k : Routine} {h : String},
      (st.spawn j).routines[n]? = some k → st.Ready h k → st.routines[n]? = some k := by
    intro n k h hk hr
    rcases getElem?_spawn hk with ⟨-, rfl⟩ | hold
    · exact absurd hr (hcold h)
    · exact hold
  refine ⟨?_, ?_, ?_, ?_, hp.spaced⟩
  · intro n k ctx h hk hm
    exact hp.made n k ctx h (hold hk hm) hm
  · intro n n' k k' ctx h h' hk hk' hm hm'
    exact hp.own n n' k k' ctx h h' (hold hk hm) (hold hk' hm') hm hm'
  · intro n n' k k' h hk hk' hr hr'
    exact hp.alone n n' k k' h (hold' hk hr) (hold' hk' hr') hr hr'
  · intro n k h hk hr
    exact hp.rested n k h (hold' hk hr) hr

/-- A start adds a monitor that has not begun, under a context of its own. -/
theorem Paced.start (hp : st.Paced) (s : PendingStrategy) : (st.start s).Paced := by
  unfold MonitorState.start
  cases hs : st.monitors.stopChans s.commitmentHash with
  | some tm => exact hp
  | none =>
      have hlen : (st.monitors.startMonitoring s).goroutines.length
          = st.monitors.goroutines.length + 1 := by
        simp [Monitors.startMonitoring, hs]
      have halive : ∀ ctx, (st.monitors.startMonitoring s).cancelled ctx = false →
          st.monitors.cancelled ctx = false := by
        intro ctx hctx
        rw [Monitors.startMonitoring_cancelled] at hctx
        exact hctx
      set new : Routine := .begin st.monitors.goroutines.length s
      have hold : ∀ {n : ℕ} {k : Routine} {h : String},
          (st.spawn new).routines[n]? = some k →
          Ready { st.spawn new with monitors := st.monitors.startMonitoring s } h k →
          st.routines[n]? = some k ∧ st.Ready h k := by
        intro n k h hk hr
        have hr' : st.Ready h k := hr.before halive
        rcases getElem?_spawn hk with ⟨-, rfl⟩ | hold
        · exact hr'.elim
        · exact ⟨hold, hr'⟩
      dsimp only
      refine ⟨?_, ?_, ?_, ?_, hp.spaced⟩
      · intro n k ctx h hk hm
        show ctx < (st.monitors.startMonitoring s).goroutines.length
        rw [hlen]
        rcases getElem?_spawn hk with ⟨-, rfl⟩ | hold
        · cases hm
          exact Nat.lt_succ_self _
        · exact Nat.lt_succ_of_lt (hp.made n k ctx h hold hm)
      · intro n n' k k' ctx h h' hk hk' hm hm'
        rcases getElem?_spawn hk with ⟨hn, rfl⟩ | hold
        · rcases getElem?_spawn hk' with ⟨hn', rfl⟩ | hold'
          · rw [hn, hn']
          · cases hm
            exact absurd (hp.made n' k' _ h' hold' hm') (Nat.lt_irrefl _)
        · rcases getElem?_spawn hk' with ⟨hn', rfl⟩ | hold'
          · cases hm'
            exact absurd (hp.made n k _ h hold hm) (Nat.lt_irrefl _)
          · exact hp.own n n' k k' ctx h h' hold hold' hm hm'
      · intro n n' k k' h hk hk' hr hr'
        obtain ⟨hj, hready⟩ := hold hk hr
        obtain ⟨hj', hready'⟩ := hold hk' hr'
        exact hp.alone n n' k k' h hj hj' hready hready'
      · intro n k h hk hr
        obtain ⟨hj, hready⟩ := hold hk hr
        exact hp.rested n k h hj hready

/-- A loop begins. If it is not stopped yet, nothing else is ready for its
hash: a trigger is excluded, and a living monitor would be this one. -/
theorem Paced.begin (hp : st.Paced) (ht : st.TracksAll) {ctx : ℕ} {s : PendingStrategy}
    {ticker : Ticker} (hj : st.routines[i]? = some (.begin ctx s))
    (hb : st.monitors.cancelled ctx = false →
      st.Rested s.commitmentHash ∧ ∀ j ∈ st.routines, ¬ j.Triggers s.commitmentHash) :
    (st.put i (.evaluate ⟨ctx, s, ticker⟩)).Paced := by
  have hother : ∀ {n : ℕ} {k : Routine} {h : String}, st.routines[n]? = some k → st.Ready h k →
      h = s.commitmentHash → st.monitors.cancelled ctx = false → n = i := by
    intro n k h hk hr heq halive
    subst heq
    rcases hr.cases with htriggers | ⟨ctx', hm, halive'⟩
    · exact absurd htriggers ((hb halive).2 k (List.mem_of_getElem? hk))
    · exact hp.living ht hk hj hm rfl halive' halive
  refine ⟨?_, ?_, ?_, ?_, hp.spaced⟩
  · intro n k ctx' h hk hm
    rcases getElem?_put hk with ⟨rfl, rfl⟩ | ⟨-, hold⟩
    · cases hm
      exact hp.made n _ ctx _ hj rfl
    · exact hp.made n k ctx' h hold hm
  · intro n n' k k' ctx' h h' hk hk' hm hm'
    rcases getElem?_put hk with ⟨rfl, rfl⟩ | ⟨hn, hold⟩
    · cases hm
      rcases getElem?_put hk' with ⟨rfl, rfl⟩ | ⟨-, hold'⟩
      · rfl
      · exact hp.own n n' _ k' ctx _ h' hj hold' rfl hm'
    · rcases getElem?_put hk' with ⟨rfl, rfl⟩ | ⟨-, hold'⟩
      · cases hm'
        exact hp.own n n' k _ ctx h _ hold hj hm rfl
      · exact hp.own n n' k k' ctx' h h' hold hold' hm hm'
  · intro n n' k k' h hk hk' hr hr'
    rcases getElem?_put hk with ⟨rfl, rfl⟩ | ⟨hn, hold⟩
    · rcases getElem?_put hk' with ⟨rfl, rfl⟩ | ⟨-, hold'⟩
      · rfl
      · exact (hother hold' hr' hr.1.symm hr.2).symm
    · rcases getElem?_put hk' with ⟨rfl, rfl⟩ | ⟨-, hold'⟩
      · exact hother hold hr hr'.1.symm hr'.2
      · exact hp.alone n n' k k' h hold hold' hr hr'
  · intro n k h hk hr
    rcases getElem?_put hk with ⟨rfl, rfl⟩ | ⟨-, hold⟩
    · obtain ⟨rfl, halive⟩ := hr
      exact (hb halive).1
    · exact hp.rested n k h hold hr

/-- A monitor that has written stops itself. -/
theorem Cools.retire (ht : st.TracksAll) {l : Loop} {v : Verdict}
    (hj : st.routines[i]? = some (.wrote l v)) :
    Cools st ((st.stop l.hash).put i (.select l)) := by
  have hdead : (st.stop l.hash).monitors.cancelled l.ctx = true :=
    ht.dead_of_stop (List.mem_of_getElem? hj) rfl
  refine (Cools.stop l.hash).trans (Cools.stay (j := .wrote l v) hj rfl ?_)
  intro h hr
  rw [hr.2] at hdead
  cases hdead

/-- The monitor that marked the row hands over to its trigger: it is
stopped, and the trigger alone is ready. -/
theorem Paced.trigger (hp : st.Paced) (ht : st.TracksAll) {l : Loop}
    (hj : st.routines[i]? = some (.wrote l .met)) :
    (((st.stop l.hash).put i (.select l)).spawn (.trigger l.strategy l.ctx)).Paced := by
  have hdead : (st.stop l.hash).monitors.cancelled l.ctx = true :=
    ht.dead_of_stop (List.mem_of_getElem? hj) rfl
  have hcools : Cools st ((st.stop l.hash).put i (.select l)) := Cools.retire ht hj
  have hpaced := hcools.paced hp
  set st₁ : MonitorState := (st.stop l.hash).put i (.select l)
  -- the old goroutine was the only one ready, and is not any more
  have hnone : ∀ {n : ℕ} {k : Routine}, st₁.routines[n]? = some k → ¬ st₁.Ready l.hash k := by
    intro n k hk hr
    obtain ⟨j, hold, -, hready⟩ := hcools.routine n k hk
    have hn : n = i := hp.alone n i j _ l.hash hold hj (hready l.hash hr) rfl
    rcases getElem?_put hk with ⟨-, rfl⟩ | ⟨hne, -⟩
    · have halive : (st.stop l.hash).monitors.cancelled l.ctx = false := hr.2
      rw [hdead] at halive
      cases halive
    · exact hne hn
  refine ⟨?_, ?_, ?_, ?_, hpaced.spaced⟩
  · intro n k ctx h hk hm
    rcases getElem?_spawn hk with ⟨-, rfl⟩ | hold
    · cases hm
    · exact hpaced.made n k ctx h hold hm
  · intro n n' k k' ctx h h' hk hk' hm hm'
    rcases getElem?_spawn hk with ⟨-, rfl⟩ | hold
    · cases hm
    · rcases getElem?_spawn hk' with ⟨-, rfl⟩ | hold'
      · cases hm'
      · exact hpaced.own n n' k k' ctx h h' hold hold' hm hm'
  · intro n n' k k' h hk hk' hr hr'
    rcases getElem?_spawn hk with ⟨hn, rfl⟩ | hold
    · obtain rfl : l.strategy.commitmentHash = h := hr
      rcases getElem?_spawn hk' with ⟨hn', rfl⟩ | hold'
      · rw [hn, hn']
      · exact absurd hr' (hnone hold')
    · rcases getElem?_spawn hk' with ⟨-, rfl⟩ | hold'
      · obtain rfl : l.strategy.commitmentHash = h := hr'
        exact absurd hr (hnone hold)
      · exact hpaced.alone n n' k k' h hold hold' hr hr'
  · intro n k h hk hr
    rcases getElem?_spawn hk with ⟨-, rfl⟩ | hold
    · obtain rfl : l.strategy.commitmentHash = h := hr
      exact hp.rested i _ l.hash hj rfl
    · exact hpaced.rested n k h hold hr

/-- The request goes out: the hash had rested, and nothing is ready for it
any more. -/
theorem Paced.post (hp : st.Paced) {s : PendingStrategy} {sender : ℕ}
    (hj : st.routines[i]? = some (.trigger s sender)) :
    Paced { st.put i (.posted s) with
      posts := st.posts ++ [⟨s.executeRequest, sender, st.now⟩] } := by
  have hcools : Cools st (st.put i (.posted s)) := Cools.put_cold hj rfl fun _ ht => ht
  have hpaced := hcools.paced hp
  have hnone : ∀ {n : ℕ} {k : Routine}, (st.put i (.posted s)).routines[n]? = some k →
      ¬ st.Ready s.commitmentHash k := by
    intro n k hk hr
    rcases getElem?_put hk with ⟨-, rfl⟩ | ⟨hne, hold⟩
    · exact hr
    · exact hne (hp.alone n i k _ s.commitmentHash hold hj hr rfl)
  refine ⟨hpaced.made, hpaced.own, hpaced.alone, ?_, ?_⟩
  · intro n k h hk hr p hpost heq
    rcases List.mem_append.1 hpost with hold | hnew
    · exact hpaced.rested n k h hk hr p hold heq
    · obtain rfl := List.mem_singleton.1 hnew
      obtain rfl : s.commitmentHash = h := heq
      exact absurd hr (hnone hk)
  · unfold Spaced
    rw [List.pairwise_append]
    refine ⟨hp.spaced, List.pairwise_singleton _ _, ?_⟩
    intro p hpost q hq heq
    obtain rfl := List.mem_singleton.1 hq
    exact hp.rested i _ s.commitmentHash hj rfl p hpost heq

/-- The pace does not look at the rows. -/
theorem Paced.rows (hp : st.Paced) (t : StrategyTable) : Paced { st with strategies := t } :=
  ⟨hp.made, hp.own, hp.alone, hp.rested, hp.spaced⟩

/-- A goroutine goes on to where it triggers nothing. -/
theorem Paced.rest (hp : st.Paced) (hj : st.routines[i]? = some j) (hmon : k.monitor = none)
    (hready : ∀ h, ¬ k.Triggers h) : (st.put i k).Paced :=
  (Cools.put_cold hj hmon hready).paced hp

/-- A failed update leaves a monitor where it was, or nearer its end. -/
theorem Cools.updateFailed {l : Loop} {v : Verdict} (hj : st.routines[i]? = some j)
    (hmon : j.monitor = some (l.ctx, l.hash))
    (hready : v = .met → ∀ h, st.Ready h (.select l) → st.Ready h j) :
    Cools st (st.updateFailed i l v) := by
  cases v with
  | expired => exact Cools.slice (Cools.stay hj hmon.symm fun h hr => hr.elim)
  | met => exact Cools.slice (Cools.stay hj hmon.symm (hready rfl))

theorem Paced.boot (hp : st.Paced) (hj : st.routines[i]? = some j) : (st.boot i).Paced := by
  have hended : (st.put i .ended).Paced := hp.rest hj rfl fun _ ht => ht
  have hidle : ((st.put i .ended).spawn
      (.idle ⟨st.now, stuckSweepInterval, 0⟩)).Paced :=
    hended.spawn rfl fun _ ht => ht
  exact ⟨hidle.made, hidle.own, hidle.alone, hidle.rested, hidle.spaced⟩

/-- What a goroutine's own step keeps. -/
theorem Paced.afterReset {w : Sweep} (hp : st.Paced) (hj : st.routines[i]? = some j) :
    (st.put i (afterReset w)).Paced := by
  cases w with
  | rehydrate => exact hp.rest hj rfl fun _ ht => ht
  | periodic ticker => exact hp.rest hj rfl fun _ ht => ht

theorem Paced.run {fault : Fault} {pairPrice : PairPrice} {reply : Option ℕ}
    (hp : st.Paced) (ht : st.TracksAll)
    (hb : st.BeginsRested (.run i fault pairPrice reply)) (hj : st.routines[i]? = some j)
    (h : st.run hasRegistry i fault pairPrice reply j = some st') : st'.Paced := by
  cases ran_of_run h with
  | begun ctx s => exact hp.begin ht hj (hb i fault pairPrice reply ctx s rfl hj)
  | ticked l hdue => exact Cools.paced (Cools.stay hj rfl fun h hr => hr) hp
  | unjudged l =>
      have hselect : Cools st (st.put i (.select l)) := Cools.stay hj rfl fun h hr => hr
      exact hselect.slice.paced hp
  | unmet l => exact Cools.paced (Cools.stay hj rfl fun h hr => hr) hp
  | judged l v hjudge =>
      refine Cools.paced (Cools.slice (Cools.stay hj rfl ?_)) hp
      intro h hr
      cases v with
      | met => exact hr
      | expired => exact hr.elim
  | cancelled l v hdead =>
      refine (Cools.updateFailed hj rfl ?_).paced hp
      intro hv h hr
      subst hv
      exact hr
  | sent l v halive =>
      refine Cools.paced (Cools.stay hj rfl ?_) hp
      intro h hr
      cases v with
      | met => exact ⟨hr, halive⟩
      | expired => exact hr.elim
  | wrote l v t hu =>
      have hwrote : Cools st (st.put i (.wrote l v)) := by
        refine Cools.stay hj rfl fun h hr => ?_
        cases v with
        | met => exact hr
        | expired => exact hr
      exact (hwrote.paced hp).rows _
  | unwritten l v =>
      refine (Cools.updateFailed hj rfl ?_).paced hp
      intro hv h hr
      subst hv
      exact hr.1
  | expired l => exact (Cools.retire ht hj).paced hp
  | met l => exact hp.trigger ht hj
  | posted s sender => exact hp.post hj
  | answered s => exact Cools.paced (Cools.slice (Cools.put_cold hj rfl fun _ ht => ht)) hp
  | rejected s => exact Cools.paced (Cools.slice (Cools.put_cold hj rfl fun _ ht => ht)) hp
  | rolledBack s t hu =>
      have hresume : (st.put i (.resume { s with status := .PENDING })).Paced :=
        hp.rest hj rfl fun _ ht => ht
      exact hresume.rows _
  | stranded s => exact hp.rest hj rfl fun _ ht => ht
  | resumed s =>
      have hended : (st.put i .ended).Paced := hp.rest hj rfl fun _ ht => ht
      exact hended.start s
  | woken ticker => exact hp.rest hj rfl fun _ ht => ht
  | noneStuck w => exact hp.afterReset hj
  | someStuck w stuck hu => exact hp.rest hj rfl fun _ ht => ht
  | notReset w stuck => exact hp.afterReset hj
  | rehydrated stuck t hu =>
      have hlist : (st.put i .list).Paced := hp.rest hj rfl fun _ ht => ht
      exact hlist.rows _
  | swept ticker stuck t hu =>
      have hstart : ∀ rows, (st.put i (.startAll (.periodic ticker) rows)).Paced :=
        fun rows => hp.rest hj rfl fun _ ht => ht
      exact (hstart _).rows _
  | unlisted => exact hp.boot hj
  | listed rows hu => exact hp.rest hj rfl fun _ ht => ht
  | started w s rest =>
      have hrest : (st.put i (.startAll w rest)).Paced := hp.rest hj rfl fun _ ht => ht
      exact hrest.start s
  | booted => exact hp.boot hj
  | slept ticker => exact hp.rest hj rfl fun _ ht => ht
  | registered s =>
      have hended : (st.put i .ended).Paced := hp.rest hj rfl fun _ ht => ht
      exact hended.start s
  | stoppedFirst c => exact Paced.rest ((Cools.stop c).paced hp) hj rfl fun _ ht => ht
  | marked c recovers t hu =>
      have hfinished : (st.put i (.finished c)).Paced := hp.rest hj rfl fun _ ht => ht
      exact hfinished.rows _
  | unmarked c recovers hsize => exact hp.rest hj rfl fun _ ht => ht
  | recovered c hsize => exact hp.rest hj rfl fun _ ht => ht
  | panicked c hsize => exact Cools.crash.paced hp
  | stopped c => exact Paced.rest ((Cools.stop c).paced hp) hj rfl fun _ ht => ht

theorem Paced.step {e : MonitorStep} (hp : st.Paced) (ht : st.TracksAll)
    (hb : st.BeginsRested e) (h : (monitorService hasRegistry).step e st = some st') :
    st'.Paced := by
  simp only [monitorService] at h
  split at h
  · cases h
  cases e with
  | wait d =>
      cases h
      have hwait : Cools st { st with now := st.now + d } :=
        ⟨fun n k hk => ⟨k, hk, fun _ h hm => ⟨h, hm⟩, fun _ hr => hr⟩, rfl, rfl,
          Int.le_add_of_nonneg_right (Int.natCast_nonneg d)⟩
      exact hwait.paced hp
  | register s fault =>
      simp only [MonitorState.step, MonitorState.register] at h
      split at h
      · split at h
        · cases h
          have hspawn : ∀ row, (st.spawn (.registered row)).Paced :=
            fun row => hp.spawn rfl fun _ ht => ht
          exact (hspawn _).rows _
        · cases h
          exact hp
      · cases h
  | event topic =>
      simp only [MonitorState.step] at h
      split at h
      · cases h
        exact hp.spawn rfl fun _ ht => ht
      · cases h
  | callback c =>
      simp only [MonitorState.step] at h
      split at h
      · cases h
        exact hp.spawn rfl fun _ ht => ht
      · cases h
  | run i fault pairPrice reply =>
      simp only [MonitorState.step] at h
      split at h
      · cases h
      · rename_i j hj
        exact hp.run ht hb hj h
  | leave i =>
      simp only [MonitorState.step] at h
      split at h
      · rename_i l hj
        split at h
        · cases h
          exact hp.rest hj rfl fun _ ht => ht
        · cases h
      · cases h

/-- The process as it starts. -/
theorem paced_initial (strategies : StrategyTable) (now : ℤ) :
    (initial strategies now).Paced := by
  have hfirst : ∀ (n : ℕ) j, (initial strategies now).routines[n]? = some j →
      n = 0 ∧ j = .find .rehydrate := by
    intro n j hj
    cases n with
    | zero => exact ⟨rfl, (Option.some.inj hj).symm⟩
    | succ n => cases hj
  refine ⟨?_, ?_, ?_, ?_, List.Pairwise.nil⟩
  · intro n j ctx h hj hm
    obtain ⟨-, rfl⟩ := hfirst n j hj
    cases hm
  · intro n n' j j' ctx h h' hj hj' _ _
    rw [(hfirst n j hj).1, (hfirst n' j' hj').1]
  · intro n n' j j' h hj hj' _ _
    rw [(hfirst n j hj).1, (hfirst n' j' hj').1]
  · intro n j h hj hr p hpost
    cases hpost

/-- `BeginsRested`, for any monitor that begins. -/
def beginsCalmly (st : MonitorState) : MonitorStep → Bool
  | .run i _ _ _ =>
      match st.routines[i]? with
      | some (.begin _ s) =>
          (st.posts.all fun p => decide (p.request.commitmentHash = s.commitmentHash →
            p.time + monitorTickInterval ≤ st.now))
          && st.routines.all fun j => decide (¬ j.Triggers s.commitmentHash)
      | _ => true
  | _ => true

theorem beginsRested_of_calm {e : MonitorStep} (hc : st.beginsCalmly e = true) :
    st.BeginsRested e := by
  intro i fault pairPrice reply ctx s he hj _
  subst he
  simp only [beginsCalmly, hj, Bool.and_eq_true, List.all_eq_true, decide_eq_true_eq] at hc
  exact hc

end MonitorState

open MonitorState

/-- If loops begin only when their hash has rested, requests for one hash
are a tick apart. -/
theorem triggers_are_paced {hasRegistry : Bool} {strategies : StrategyTable} {now : ℤ}
    {st : MonitorState}
    (hrun : (monitorService hasRegistry).Run BeginsRested (initial strategies now) st) :
    st.Spaced := by
  have hinv : st.TracksAll ∧ st.Paced := by
    refine hrun.inv (I := fun st => st.TracksAll ∧ st.Paced) ?_ ⟨?_, paced_initial strategies now⟩
    · intro st e st' hst hb hstep
      obtain ⟨ht, hp⟩ := hst
      exact ⟨ht.step hstep, hp.step ht hb hstep⟩
    · intro j hj
      obtain rfl := List.mem_singleton.1 hj
      exact TracksRoutine.of_none rfl
  exact hinv.2.spaced

-- ==================================================================== samples

/-- The keeper accepts the order and does nothing about it; the sweeper
finds it stuck, and its monitor posts it again. -/
def untilSwept : List MonitorStep :=
  [answered 4 202, .wait (901 * second), goOn 1, goOn 1, goOn 1, goOn 1, goOn 5, goOn 5, goOn 5,
   goOn 5, goOn 5, goOn 6]

def sweptBackend : MonitorState :=
  (monitorService false).endOf beginsCalmly (untilPosted ++ untilSwept) emptyBackend

theorem triggers_are_paced_sample :
    sweptBackend.posts.map Post.time = [0, 901 * second] ∧ sweptBackend.Spaced := by
  refine ⟨by decide +kernel, ?_⟩
  have hrun : (monitorService false).Run BeginsRested (initial .empty 0) sweptBackend :=
    .endOf (fun _ _ => beginsRested_of_calm) (by decide +kernel)
  exact triggers_are_paced hrun

/-- The keeper cannot reach its oracle, and its answer takes a second. -/
def untilHurried : List MonitorStep :=
  [.wait second, answered 4 503, goOn 4, goOn 4, goOn 5, goOn 5, goOn 5, goOn 5, goOn 5, goOn 6]

def hurriedBackend : MonitorState :=
  (monitorService false).endOf (fun _ _ => true) (untilPosted ++ untilHurried) emptyBackend

/-- After a rejection the order is posted again without a tick between. -/
theorem rejected_trigger_hurries :
    (monitorService false).Run Machine.anyStep (initial .empty 0) hurriedBackend
      ∧ hurriedBackend.posts.map (fun p => (p.request.commitmentHash, p.time))
        = [(sampleHash, 0), (sampleHash, (second : ℤ))]
      ∧ ¬ hurriedBackend.Spaced := by
  refine ⟨.endOf (fun _ _ _ => trivial) (by decide +kernel), by decide +kernel, ?_⟩
  unfold Spaced
  decide +kernel

end Zstrategy.Backend
