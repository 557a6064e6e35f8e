/-
When is DONE final? Every status update in `strategy_repo.go` is
unconditional, so a goroutine that still has one ahead of it when another
marks the row DONE undoes it. Such a goroutine is armed for the hash: the
keeper's answer may make it write `PENDING`, its `EXECUTING` may be on its
way, it read the row as stuck before it was done, or it is about to start,
or is, a monitor that will find its condition met.

Nothing arms a goroutine for a row that is DONE (`Progress.armed`), so a
DONE row for which nothing is armed stays as it is, whatever else the
process does.

`Progress` is what one step does for one hash, in four parts, and the run
lemmas are its transitive closure. It is closed under what steps are made
of: a goroutine goes on (`put`), is started (`spawn`, `start`), ends
(`ended`), or all do (`crash`), after the table or the monitors have
changed. So `Progress.run` only has to say, for each place where a goroutine
can stand, which of these happens and why it arms nothing for a row that is
DONE.
-/
import Zstrategy.Backend.LiveMonitors

namespace Zstrategy.Backend

open Lib

-- ================================================================== the rows

/-- The row of `h` has status DONE. -/
def Finished (t : StrategyTable) (h : String) : Prop :=
  ∃ s, t.find h = some s ∧ s.status = .DONE

section Rows

variable {fault : Fault} {now olderThan : ℤ} {c h : String} {status : StrategyStatus}
  {t t' : StrategyTable} {s : PendingStrategy}

/-- A status update leaves the other rows as finished as they were. -/
theorem finished_update_other (hu : StrategyRepo.updateStatus fault now c status t = .ok t')
    (hne : h ≠ c) : Finished t' h ↔ Finished t h := by
  unfold Finished
  rw [StrategyRepo.updateStatus_find hu, if_neg hne]

/-- An update to DONE unmakes nothing. -/
theorem finished_update_done (hu : StrategyRepo.updateStatus fault now c .DONE t = .ok t')
    (hf : Finished t h) : Finished t' h := by
  by_cases heq : h = c
  · subst heq
    obtain ⟨s, hs, -⟩ := hf
    refine ⟨StrategyRepo.setStatus now .DONE s, ?_, rfl⟩
    rw [StrategyRepo.updateStatus_find hu, if_pos rfl, hs]
    rfl
  · exact (finished_update_other hu heq).2 hf

/-- Any other update does. -/
theorem not_finished_update (hu : StrategyRepo.updateStatus fault now c status t = .ok t')
    (hstatus : status ≠ .DONE) : ¬ Finished t' c := by
  intro hf
  obtain ⟨s, hs, hdone⟩ := hf
  rw [StrategyRepo.updateStatus_find hu, if_pos rfl] at hs
  obtain ⟨r, -, rfl⟩ := Option.map_eq_some_iff.1 hs
  exact hstatus hdone

/-- A reset unmakes the rows it lists, and no others. -/
theorem finished_resetStuck {hashes : List String}
    (hu : StrategyRepo.resetStuck fault now hashes t = .ok t') :
    Finished t' h ↔ Finished t h ∧ h ∉ hashes := by
  obtain ⟨-, rfl⟩ := query_eq_ok.1 hu
  unfold Finished
  rw [Table.find_updateWhere]
  cases hfind : t.find h with
  | none => simp
  | some s =>
      have hkey : s.commitmentHash = h := Table.key_of_find hfind
      by_cases hmem : h ∈ hashes
      · simp [hkey, hmem, StrategyRepo.setStatus]
      · simp [hkey, hmem]

/-- What is found stuck is EXECUTING, so not DONE. -/
theorem not_finished_findStuck {rows : List PendingStrategy}
    (hu : StrategyRepo.findStuck fault now olderThan t = .ok rows) (hs : s ∈ rows) :
    ¬ Finished t s.commitmentHash := by
  obtain ⟨-, rfl⟩ := query_eq_ok.1 hu
  obtain ⟨hmem, hstuck⟩ := List.mem_filter.1 hs
  intro hf
  obtain ⟨r, hr, hdone⟩ := hf
  rw [Table.find_of_mem hmem] at hr
  cases hr
  simp [hdone] at hstuck

/-- What is listed as pending is not DONE. -/
theorem not_finished_listPending {rows : List PendingStrategy}
    (hu : StrategyRepo.listPending fault t = .ok rows) (hs : s ∈ rows) :
    ¬ Finished t s.commitmentHash := by
  obtain ⟨-, rfl⟩ := query_eq_ok.1 hu
  obtain ⟨hmem, hpending⟩ := List.mem_filter.1 hs
  intro hf
  obtain ⟨r, hr, hdone⟩ := hf
  rw [Table.find_of_mem hmem] at hr
  cases hr
  simp [hdone] at hpending

/-- A saved row is new and PENDING. -/
theorem finished_save (hu : StrategyRepo.save fault s t = .ok t') (hs : s.status ≠ .DONE) :
    Finished t' h ↔ Finished t h := by
  obtain ⟨-, hinsert⟩ := StrategyRepo.save_eq_ok.1 hu
  unfold Finished
  rw [Table.find_insert hinsert]
  by_cases heq : s.commitmentHash = h
  · rw [if_pos heq, ← heq, Table.fresh_of_insert hinsert]
    simp [hs]
  · rw [if_neg heq]

end Rows

-- ============================================================= armed goroutines

/-- The hash that a goroutine's next write marks DONE. -/
def Routine.finishes : Routine → Option String
  | .sent l .expired => some l.hash
  | .finish h _ => some h
  | _ => none

namespace MonitorState

variable (hasRegistry : Bool)

/-- Evaluated at `t`, for some price, a monitor of `s` goes on to trigger. -/
def FiresAt (s : PendingStrategy) (t : ℤ) : Prop :=
  10 ≤ s.commitmentHash.utf8ByteSize ∧
    ∃ pairPrice, judge hasRegistry s (unix t) pairPrice = .ok (some .met)

/-- It may still, from `now` on. -/
def CanFire (s : PendingStrategy) (now : ℤ) : Prop :=
  ∃ t, now ≤ t ∧ FiresAt hasRegistry s t

/-- The goroutine can still take the row of `h` out of DONE: by a write of
its own, or by a monitor it runs or starts. -/
def Arms (st : MonitorState) (h : String) : Routine → Prop
  | .begin ctx s =>
      s.commitmentHash = h ∧ st.monitors.cancelled ctx = false ∧ CanFire hasRegistry s st.now
  | .select l =>
      l.hash = h ∧ st.monitors.cancelled l.ctx = false
        ∧ ∃ t, st.now ≤ t ∧ l.ticker.Due t ∧ FiresAt hasRegistry l.strategy t
  | .evaluate l =>
      l.hash = h ∧ st.monitors.cancelled l.ctx = false
        ∧ CanFire hasRegistry l.strategy st.now
  | .write l .met => l.hash = h ∧ st.monitors.cancelled l.ctx = false
  | .sent l .met | .wrote l .met => l.hash = h
  | .trigger s _ | .posted s | .rollback s => s.commitmentHash = h
  | .reset _ stuck => ∃ s ∈ stuck, s.commitmentHash = h
  | .startAll _ rest => ∃ s ∈ rest, s.commitmentHash = h ∧ CanFire hasRegistry s st.now
  | .resume s | .registered s => s.commitmentHash = h ∧ CanFire hasRegistry s st.now
  | _ => False

/-- Some goroutine is armed for `h`. -/
def Armed (st : MonitorState) (h : String) : Prop :=
  ∃ j ∈ st.routines, st.Arms hasRegistry h j

def Done (st : MonitorState) (h : String) : Prop := Finished st.strategies h

variable {hasRegistry} {st st' st'' : MonitorState} {i : ℕ} {j k : Routine} {h c : String}
  {s : PendingStrategy} {l : Loop}

/-- What can fire from now on could from earlier on. -/
theorem CanFire.earlier {now now' : ℤ} (hle : now ≤ now') (hf : CanFire hasRegistry s now') :
    CanFire hasRegistry s now := by
  obtain ⟨t, ht, hfires⟩ := hf
  exact ⟨t, le_trans hle ht, hfires⟩

/-- A goroutine that the step does not move is armed after it only if it
was before: contexts stay cancelled and time passes. -/
theorem Arms.before (halive : ∀ ctx, st'.monitors.cancelled ctx = false →
      st.monitors.cancelled ctx = false) (hnow : st.now ≤ st'.now)
    (ha : st'.Arms hasRegistry h j) : st.Arms hasRegistry h j := by
  cases j with
  | begin ctx s =>
      obtain ⟨heq, hctx, hf⟩ := ha
      exact ⟨heq, halive ctx hctx, hf.earlier hnow⟩
  | select l =>
      obtain ⟨heq, hctx, t, ht, hfires⟩ := ha
      exact ⟨heq, halive l.ctx hctx, t, le_trans hnow ht, hfires⟩
  | evaluate l =>
      obtain ⟨heq, hctx, hf⟩ := ha
      exact ⟨heq, halive l.ctx hctx, hf.earlier hnow⟩
  | write l v =>
      cases v with
      | expired => exact ha
      | met =>
          obtain ⟨heq, hctx⟩ := ha
          exact ⟨heq, halive l.ctx hctx⟩
  | sent l v => cases v <;> exact ha
  | wrote l v => cases v <;> exact ha
  | startAll w rest =>
      obtain ⟨s, hs, heq, hf⟩ := ha
      exact ⟨s, hs, heq, hf.earlier hnow⟩
  | resume s =>
      obtain ⟨heq, hf⟩ := ha
      exact ⟨heq, hf.earlier hnow⟩
  | registered s =>
      obtain ⟨heq, hf⟩ := ha
      exact ⟨heq, hf.earlier hnow⟩
  | _ => exact ha

/-- Who is armed after a goroutine went on was armed before, or is the one
that went on. -/
theorem armed_put (ha : (st.put i j).Armed hasRegistry h) :
    st.Armed hasRegistry h ∨ st.Arms hasRegistry h j := by
  obtain ⟨k, hk, harms⟩ := ha
  rcases mem_put hk with hold | rfl
  · exact Or.inl ⟨k, hold, harms⟩
  · exact Or.inr harms

/-- Likewise after a goroutine was added. -/
theorem armed_spawn (ha : (st.spawn j).Armed hasRegistry h) :
    st.Armed hasRegistry h ∨ st.Arms hasRegistry h j := by
  obtain ⟨k, hk, harms⟩ := ha
  rcases mem_spawn hk with hold | rfl
  · exact Or.inl ⟨k, hold, harms⟩
  · exact Or.inr harms

/-- After a crash nobody is left. -/
theorem not_armed_crash : ¬ st.crash.Armed hasRegistry h := by
  intro ha
  obtain ⟨k, hk, -⟩ := ha
  cases hk

/-- Stopping a monitor arms nobody. -/
theorem armed_stop (ha : (st.stop c).Armed hasRegistry h) : st.Armed hasRegistry h := by
  obtain ⟨k, hk, harms⟩ := ha
  refine ⟨k, hk, harms.before ?_ ?_⟩
  · intro ctx
    exact Monitors.stopMonitoring_alive
  · exact le_refl st.now

/-- A restart arms only for the strategy it restarts. -/
theorem armed_start (ha : (st.start s).Armed hasRegistry h) :
    st.Armed hasRegistry h ∨ s.commitmentHash = h ∧ CanFire hasRegistry s st.now := by
  obtain ⟨k, hk, harms⟩ := ha
  have hbefore : st.Arms hasRegistry h k := by
    apply harms.before
    · intro ctx hctx
      rw [start_monitors, Monitors.startMonitoring_cancelled] at hctx
      exact hctx
    · rw [start_now]
  rcases mem_start hk with hold | ⟨-, rfl⟩
  · exact Or.inl ⟨k, hold, hbefore⟩
  · obtain ⟨heq, -, hf⟩ := hbefore
    exact Or.inr ⟨heq, hf⟩

-- ============================================================== what a step does

/-- From `st` to `st'`: nothing is armed for a row that is DONE; what is
DONE with nothing armed stays so and is not posted; what becomes DONE was
written. -/
structure Progress (hasRegistry : Bool) (written : Prop) (h : String)
    (st st' : MonitorState) : Prop where
  armed : st'.Armed hasRegistry h → st.Armed hasRegistry h ∨ ¬ st'.Done h
  kept : st.Done h → ¬ st.Armed hasRegistry h → st'.Done h
  quiet : ¬ st.Armed hasRegistry h →
    ∃ new, st'.posts = st.posts ++ new ∧ ∀ p ∈ new, p.request.commitmentHash ≠ h
  wrote : st'.Done h → st.Done h ∨ written

namespace Progress

variable {written : Prop} {st₁ : MonitorState}

/-- Neither rows nor requests have changed. -/
theorem of_same (hs : st'.strategies = st.strategies) (hp : st'.posts = st.posts)
    (ha : st'.Armed hasRegistry h → st.Armed hasRegistry h ∨ ¬ st'.Done h) :
    Progress hasRegistry written h st st' where
  armed := ha
  kept := by
    intro hdone _
    unfold Done at hdone ⊢
    rw [hs]
    exact hdone
  quiet := by
    intro _
    exact ⟨[], by rw [hp, List.append_nil], by simp⟩
  wrote := by
    intro hdone
    unfold Done at hdone ⊢
    rw [hs] at hdone
    exact Or.inl hdone

/-- Nothing has happened. -/
theorem refl : Progress hasRegistry written h st st :=
  of_same rfl rfl Or.inl

/-- After a first part, one that leaves the rows and the requests alone. -/
theorem trans_same (hp : Progress hasRegistry written h st st₁)
    (hs : st'.strategies = st₁.strategies) (hq : st'.posts = st₁.posts)
    (ha : st'.Armed hasRegistry h →
      st₁.Armed hasRegistry h ∨ st.Armed hasRegistry h ∨ ¬ st₁.Done h) :
    Progress hasRegistry written h st st' := by
  have hdone : st'.Done h ↔ st₁.Done h := by
    unfold Done
    rw [hs]
  refine ⟨?_, ?_, ?_, ?_⟩
  · intro harmed
    rw [hdone]
    rcases ha harmed with h₁ | hother
    · exact hp.armed h₁
    · exact hother
  · intro hd hunarmed
    exact hdone.2 (hp.kept hd hunarmed)
  · rw [hq]
    exact hp.quiet
  · intro hd
    exact hp.wrote (hdone.1 hd)

/-- A goroutine goes on. -/
theorem put (hp : Progress hasRegistry written h st st₁)
    (ha : st₁.Arms hasRegistry h k → st.Armed hasRegistry h ∨ ¬ st₁.Done h) :
    Progress hasRegistry written h st (st₁.put i k) := by
  refine hp.trans_same rfl rfl ?_
  intro harmed
  rcases armed_put harmed with hold | hnew
  · exact Or.inl hold
  · exact Or.inr (ha hnew)

/-- A goroutine is added. -/
theorem spawn (hp : Progress hasRegistry written h st st₁)
    (ha : st₁.Arms hasRegistry h k → st.Armed hasRegistry h ∨ ¬ st₁.Done h) :
    Progress hasRegistry written h st (st₁.spawn k) := by
  refine hp.trans_same rfl rfl ?_
  intro harmed
  rcases armed_spawn harmed with hold | hnew
  · exact Or.inl hold
  · exact Or.inr (ha hnew)

/-- A goroutine that goes on as one that is never armed. -/
theorem rest (hp : Progress hasRegistry written h st st₁)
    (hk : ∀ st, ¬ MonitorState.Arms hasRegistry st h k) :
    Progress hasRegistry written h st (st₁.put i k) :=
  hp.put fun ha => absurd ha (hk st₁)

/-- A goroutine ends. -/
theorem ended : Progress hasRegistry written h st (st.put i .ended) :=
  refl.rest fun _ ha => ha

/-- The start-up ends. -/
theorem boot : Progress hasRegistry written h st (st.boot i) := by
  have hended : Progress hasRegistry written h st (st.put i .ended) := ended
  refine hended.trans_same rfl rfl ?_
  intro harmed
  have hspawn : ((st.put i .ended).spawn (.idle ⟨st.now, stuckSweepInterval, 0⟩)).Armed
      hasRegistry h := harmed
  rcases armed_spawn hspawn with hold | hnew
  · exact Or.inl hold
  · exact hnew.elim

/-- A monitor is stopped. -/
theorem stop (hp : Progress hasRegistry written h st st₁) :
    Progress hasRegistry written h st (st₁.stop c) := by
  refine hp.trans_same rfl rfl ?_
  intro harmed
  exact Or.inl (armed_stop harmed)

/-- A monitor is started, for a row for which somebody was armed, or one
that can no longer fire. -/
theorem start (hp : Progress hasRegistry written h st st₁)
    (ha : s.commitmentHash = h → CanFire hasRegistry s st₁.now → st.Armed hasRegistry h) :
    Progress hasRegistry written h st (st₁.start s) := by
  apply hp.trans_same start_strategies start_posts
  intro harmed
  rcases armed_start harmed with hold | ⟨heq, hf⟩
  · exact Or.inl hold
  · exact Or.inr (Or.inl (ha heq hf))

/-- The process is gone, and the rows are as they were. -/
theorem crash : Progress hasRegistry written h st st.crash :=
  of_same rfl rfl fun ha => absurd ha not_armed_crash

/-- A hash is sliced for a log line, or the process is gone. -/
theorem slice (hp : 10 ≤ c.utf8ByteSize → Progress hasRegistry written h st st') :
    Progress hasRegistry written h st (st.slice c st') := by
  rcases slice_cases st c st' with ⟨hsize, hs⟩ | hs
  · rw [hs]
    exact hp hsize
  · rw [hs]
    exact crash

/-- A write to the rows. -/
theorem rows {t : StrategyTable}
    (hkept : st.Done h → ¬ st.Armed hasRegistry h → Finished t h)
    (hwrote : Finished t h → st.Done h ∨ written) :
    Progress hasRegistry written h st { st with strategies := t } where
  armed := Or.inl
  kept := hkept
  quiet := by
    intro _
    exact ⟨[], by simp, by simp⟩
  wrote := hwrote

/-- A request to the keeper. -/
theorem post {p : Post} (hp : p.request.commitmentHash = h → st.Armed hasRegistry h) :
    Progress hasRegistry written h st { st with posts := st.posts ++ [p] } where
  armed := Or.inl
  kept := by
    intro hdone _
    exact hdone
  quiet := by
    intro hunarmed
    refine ⟨[p], rfl, ?_⟩
    intro q hq
    rw [List.mem_singleton.1 hq]
    exact fun heq => hunarmed (hp heq)
  wrote := Or.inl

end Progress

/-- A tick that waits keeps waiting. -/
theorem Ticker.due_later {t : Ticker} {now now' : ℤ} (hle : now ≤ now') (hd : t.Due now) :
    t.Due now' := by
  have hmono : t.elapsed now ≤ t.elapsed now' := by
    unfold Ticker.elapsed
    rcases Nat.eq_zero_or_pos t.period with hzero | hpos
    · rw [hzero, Int.natCast_zero, Int.ediv_zero, Int.ediv_zero]
    · exact Int.ediv_le_ediv (by omega) (by omega)
  unfold Ticker.Due at hd ⊢
  omega

/-- A goroutine that failed to update goes back to where it was armed
before, if at all. -/
theorem Progress.updateFailed {written : Prop} {v : Verdict} (hmem : j ∈ st.routines)
    (hv : v = .met → st.Arms hasRegistry h (.select l) → st.Arms hasRegistry h j) :
    Progress hasRegistry written h st (st.updateFailed i l v) := by
  cases v with
  | expired =>
      exact Progress.slice fun _ => Progress.refl.rest fun _ ha => ha
  | met =>
      refine Progress.slice fun _ => Progress.refl.put ?_
      intro ha
      exact Or.inl ⟨j, hmem, hv rfl ha⟩

/-- A loop back in its `select` could have fired at the evaluation. -/
theorem Arms.evaluate {l : Loop} (ha : st.Arms hasRegistry h (.select l)) :
    st.Arms hasRegistry h (.evaluate l) := by
  obtain ⟨heq, hctx, t, hle, -, hfires⟩ := ha
  exact ⟨heq, hctx, t, hle, hfires⟩

/-- A sweeper that has handed on all it found is not armed. -/
theorem not_arms_afterReset {w : Sweep} : ¬st.Arms hasRegistry h (afterReset w) := by
  cases w with
  | rehydrate => exact fun ha => ha
  | periodic ticker => exact fun ha => ha

/-- Only stuck rows are reset, and none of them is DONE. -/
theorem Progress.reset {w : Sweep} {stuck : List PendingStrategy} {t : StrategyTable}
    {fault : Fault} {p : Prop} (hmem : Routine.reset w stuck ∈ st.routines)
    (hu : StrategyRepo.resetStuck fault st.now (stuck.map PendingStrategy.commitmentHash)
      st.strategies = .ok t) :
    Progress hasRegistry p h st { st with strategies := t } := by
  refine Progress.rows ?_ ?_
  · intro hdone hunarmed
    refine (finished_resetStuck hu).2 ⟨hdone, ?_⟩
    intro hin
    exact hunarmed ⟨_, hmem, List.mem_map.1 hin⟩
  · intro hdone
    exact Or.inl ((finished_resetStuck hu).1 hdone).1

/-- A step of one goroutine, by where it stands. -/
theorem Progress.run {fault : Fault} {pairPrice : PairPrice} {reply : Option ℕ}
    (ht : st.TracksAll) (hj : st.routines[i]? = some j)
    (hrun : st.run hasRegistry i fault pairPrice reply j = some st') :
    Progress hasRegistry (j.finishes = some h ∧ fault = none) h st st' := by
  have hmem : j ∈ st.routines := List.mem_of_getElem? hj
  have mine : st.Arms hasRegistry h j → ∀ p : Prop, st.Armed hasRegistry h ∨ p :=
    fun ha p => Or.inl ⟨j, hmem, ha⟩
  cases ran_of_run hrun with
  | begun ctx s => exact Progress.refl.put fun ha => mine ha _
  | ticked l hdue =>
      refine Progress.refl.put ?_
      intro ha
      obtain ⟨heq, hctx, t, hle, hfires⟩ := ha
      exact mine ⟨heq, hctx, t, hle, Ticker.due_later hle hdue, hfires⟩ _
  | unjudged l => exact Progress.slice fun _ => Progress.refl.put fun ha => mine ha.evaluate _
  | unmet l => exact Progress.refl.put fun ha => mine ha.evaluate _
  | judged l v hjudge =>
      refine Progress.slice fun hsize => Progress.refl.put ?_
      intro ha
      cases v with
      | expired => cases ha
      | met =>
          obtain ⟨heq, hctx⟩ := ha
          exact mine ⟨heq, hctx, st.now, le_refl _, hsize, pairPrice, hjudge⟩ _
  | cancelled l v hdead =>
      refine Progress.updateFailed hmem ?_
      intro _ ha
      obtain ⟨-, hctx, -⟩ := ha
      rw [hctx] at hdead
      cases hdead
  | sent l v halive =>
      refine Progress.refl.put ?_
      intro ha
      cases v with
      | expired => cases ha
      | met => exact mine ⟨ha, halive⟩ _
  | wrote l v t hu =>
      have hnofault : fault = none := (query_eq_ok.1 hu).1
      cases v with
      | expired =>
          refine (Progress.rows ?_ ?_).put ?_
          · intro hdone _
            exact finished_update_done hu hdone
          · intro hdone
            by_cases heq : h = l.hash
            · exact Or.inr ⟨by rw [heq]; rfl, hnofault⟩
            · exact Or.inl ((finished_update_other hu heq).1 hdone)
          · intro ha
            cases ha
      | met =>
          refine (Progress.rows ?_ ?_).put ?_
          · intro hdone hunarmed
            apply (finished_update_other hu _).2 hdone
            intro heq
            exact hunarmed ⟨_, hmem, heq.symm⟩
          · intro hdone
            apply Or.inl
            apply (finished_update_other hu _).1 hdone
            intro heq
            rw [heq] at hdone
            exact not_finished_update hu (by simp [Verdict.status]) hdone
          · intro ha
            exact mine ha _
  | unwritten l v =>
      refine Progress.updateFailed hmem ?_
      intro hv ha
      subst hv
      exact ha.1
  | expired l =>
      refine Progress.refl.stop.put ?_
      intro ha
      have hdead : (st.stop l.hash).monitors.cancelled l.ctx = true :=
        ht.dead_of_stop hmem rfl
      obtain ⟨-, hctx, -⟩ := ha
      rw [hdead] at hctx
      cases hctx
  | met l =>
      refine (Progress.refl.stop.put ?_).spawn ?_
      · intro ha
        exact mine ha.1 _
      · intro ha
        exact mine ha _
  | posted s sender =>
      refine (Progress.post ?_).put ?_
      · intro heq
        exact ⟨_, hmem, heq⟩
      · intro ha
        exact mine ha _
  | answered s => exact Progress.slice fun _ => Progress.refl.rest fun _ ha => ha
  | rejected s => exact Progress.slice fun _ => Progress.refl.put fun ha => mine ha _
  | rolledBack s t hu =>
      refine (Progress.rows ?_ ?_).put ?_
      · intro hdone hunarmed
        apply (finished_update_other hu _).2 hdone
        intro heq
        exact hunarmed ⟨_, hmem, heq.symm⟩
      · intro hdone
        apply Or.inl
        apply (finished_update_other hu _).1 hdone
        intro heq
        rw [heq] at hdone
        exact not_finished_update hu (by simp) hdone
      · intro ha
        exact mine ha.1 _
  | stranded s => exact Progress.refl.rest fun _ ha => ha
  | resumed s =>
      refine Progress.ended.start ?_
      intro heq hf
      exact ⟨_, hmem, heq, hf⟩
  | woken ticker => exact Progress.refl.rest fun _ ha => ha
  | noneStuck w => exact Progress.refl.rest fun _ => not_arms_afterReset
  | someStuck w stuck hu =>
      refine Progress.refl.put ?_
      intro ha
      obtain ⟨s, hs, heq⟩ := ha
      rw [← heq]
      exact Or.inr (not_finished_findStuck hu hs)
  | notReset w stuck => exact Progress.refl.rest fun _ => not_arms_afterReset
  | rehydrated stuck t hu => exact (Progress.reset hmem hu).rest fun _ ha => ha
  | swept ticker stuck t hu =>
      refine (Progress.reset hmem hu).put ?_
      intro ha
      obtain ⟨s, hs, heq, -⟩ := ha
      obtain ⟨r, hr, rfl⟩ := List.mem_map.1 hs
      exact mine ⟨r, hr, heq⟩ _
  | unlisted => exact Progress.boot
  | listed rows hu =>
      refine Progress.refl.put ?_
      intro ha
      obtain ⟨s, hs, heq, -⟩ := ha
      rw [← heq]
      exact Or.inr (not_finished_listPending hu hs)
  | started w s rest =>
      refine (Progress.refl.put ?_).start ?_
      · intro ha
        obtain ⟨r, hr, hfires⟩ := ha
        exact mine ⟨r, List.mem_cons_of_mem s hr, hfires⟩ _
      · intro heq hf
        exact ⟨_, hmem, s, List.mem_cons_self, heq, hf⟩
  | booted => exact Progress.boot
  | slept ticker => exact Progress.refl.rest fun _ ha => ha
  | registered s =>
      refine Progress.ended.start ?_
      intro heq hf
      exact ⟨_, hmem, heq, hf⟩
  | stoppedFirst c => exact Progress.refl.stop.rest fun _ ha => ha
  | marked c recovers t hu =>
      have hnofault : fault = none := (query_eq_ok.1 hu).1
      refine (Progress.rows ?_ ?_).rest fun _ ha => ha
      · intro hdone _
        exact finished_update_done hu hdone
      · intro hdone
        by_cases heq : h = c
        · exact Or.inr ⟨by rw [heq]; rfl, hnofault⟩
        · exact Or.inl ((finished_update_other hu heq).1 hdone)
  | unmarked c recovers hsize => exact Progress.refl.rest fun _ ha => ha
  | recovered c hsize => exact Progress.refl.rest fun _ ha => ha
  | panicked c hsize => exact Progress.crash
  | stopped c => exact Progress.refl.stop.rest fun _ ha => ha

-- =================================================================== the runs

/-- The step marks the row of `h` DONE. -/
def Marks (st : MonitorState) (h : String) : MonitorStep → Prop
  | .run i fault _ _ => fault = none ∧ ∃ j, st.routines[i]? = some j ∧ j.finishes = some h
  | _ => False

/-- A step of the machine: a goroutine, a handler, a request, or the
clock. -/
theorem Progress.step {e : MonitorStep} (ht : st.TracksAll)
    (hstep : (monitorService hasRegistry).step e st = some st') :
    Progress hasRegistry (st.Marks h e) h st st' := by
  simp only [monitorService] at hstep
  split at hstep
  · cases hstep
  cases e with
  | wait d =>
      cases hstep
      refine Progress.of_same rfl rfl ?_
      intro harmed
      obtain ⟨k, hk, harms⟩ := harmed
      refine Or.inl ⟨k, hk, harms.before ?_ ?_⟩
      · exact fun _ hctx => hctx
      · show st.now ≤ st.now + d
        omega
  | register s fault =>
      simp only [MonitorState.step, MonitorState.register] at hstep
      split at hstep
      · split at hstep
        · rename_i t hsave
          cases hstep
          refine (Progress.rows ?_ ?_).spawn ?_
          · intro hdone _
            exact (finished_save hsave (by simp)).2 hdone
          · intro hdone
            exact Or.inl ((finished_save hsave (by simp)).1 hdone)
          · -- the new row is PENDING
            intro ha
            obtain ⟨heq, -⟩ := ha
            apply Or.inr
            intro hdone
            obtain ⟨r, hr, hstatus⟩ := hdone
            obtain ⟨-, hinsert⟩ := StrategyRepo.save_eq_ok.1 hsave
            rw [Table.find_insert hinsert, if_pos heq] at hr
            cases hr
            cases hstatus
        · cases hstep
          exact Progress.refl
      · cases hstep
  | event topic =>
      simp only [MonitorState.step] at hstep
      split at hstep
      · cases hstep
        exact Progress.refl.spawn fun ha => ha.elim
      · cases hstep
  | callback c =>
      simp only [MonitorState.step] at hstep
      split at hstep
      · cases hstep
        exact Progress.refl.spawn fun ha => ha.elim
      · cases hstep
  | run i fault pairPrice reply =>
      simp only [MonitorState.step] at hstep
      split at hstep
      · cases hstep
      · rename_i j hj
        have hrun := Progress.run (h := h) ht hj hstep
        refine ⟨hrun.armed, hrun.kept, hrun.quiet, ?_⟩
        intro hdone
        rcases hrun.wrote hdone with hold | ⟨hfinishes, hfault⟩
        · exact Or.inl hold
        · exact Or.inr ⟨hfault, j, hj, hfinishes⟩
  | leave i =>
      simp only [MonitorState.step] at hstep
      split at hstep
      · split at hstep
        · cases hstep
          exact Progress.ended
        · cases hstep
      · cases hstep

/-- Whenever a row is marked DONE, nothing is armed for it. -/
def UnarmedMarks (hasRegistry : Bool) (st : MonitorState) (e : MonitorStep) : Prop :=
  ∀ h, st.Marks h e → ¬ st.Armed hasRegistry h

/-- A DONE row for which nothing is armed stays as it is in every run. -/
theorem stays_done {P : MonitorState → MonitorStep → Prop} (ht : st.TracksAll)
    (hdone : st.Done h) (hunarmed : ¬ st.Armed hasRegistry h)
    (hrun : (monitorService hasRegistry).Run P st st') :
    st'.TracksAll ∧ st'.Done h ∧ ¬ st'.Armed hasRegistry h ∧
      ∃ new, st'.posts = st.posts ++ new ∧ ∀ p ∈ new, p.request.commitmentHash ≠ h := by
  induction hrun with
  | refl => exact ⟨ht, hdone, hunarmed, [], by simp, by simp⟩
  | tail e _ _ hstep ih =>
      obtain ⟨ht', hdone', hunarmed', new, hposts, hnew⟩ := ih
      have hp := Progress.step (h := h) ht' hstep
      have hdone'' := hp.kept hdone' hunarmed'
      obtain ⟨more, hmore, hother⟩ := hp.quiet hunarmed'
      refine ⟨ht'.step hstep, hdone'', ?_, new ++ more, ?_, ?_⟩
      · intro harmed
        rcases hp.armed harmed with hold | hnot
        · exact hunarmed' hold
        · exact hnot hdone''
      · rw [hmore, hposts, List.append_assoc]
      · intro p hp
        rcases List.mem_append.1 hp with hp | hp
        · exact hnew p hp
        · exact hother p hp

/-- In a run that marks only unarmed rows, every DONE row is unarmed. -/
theorem unarmed_of_done {strategies : StrategyTable} {now : ℤ}
    (hrun : (monitorService hasRegistry).Run (UnarmedMarks hasRegistry)
      (initial strategies now) st) :
    st.TracksAll ∧ ∀ h, st.Done h → ¬ st.Armed hasRegistry h := by
  apply hrun.inv (I := fun st => st.TracksAll ∧ ∀ h, st.Done h → ¬ st.Armed hasRegistry h)
  · intro st e st' hinv hmarks hstep
    obtain ⟨ht, hunarmed⟩ := hinv
    refine ⟨ht.step hstep, ?_⟩
    intro h hdone harmed
    have hp : Progress hasRegistry (st.Marks h e) h st st' := Progress.step ht hstep
    rcases hp.armed harmed with hold | hnot
    · rcases hp.wrote hdone with hbefore | hmark
      · exact hunarmed h hbefore hold
      · exact hmarks h hmark hold
    · exact hnot hdone
  · constructor
    · intro j hj
      rw [List.mem_singleton.1 hj]
      exact .of_none rfl
    · intro h _ harmed
      obtain ⟨j, hj, harms⟩ := harmed
      rw [List.mem_singleton.1 hj] at harms
      exact harms

/-- Not armed for anything, as far as its shape and its context tell. -/
def dormant (st : MonitorState) : Routine → Bool
  | .begin ctx _ => st.monitors.cancelled ctx
  | .select l | .evaluate l | .write l .met => st.monitors.cancelled l.ctx
  | .write _ .expired | .sent _ .expired | .wrote _ .expired => true
  | .idle _ | .find _ | .list | .stopFirst _ | .finish _ _ | .finished _ | .ended => true
  | _ => false

/-- A dormant goroutine is armed for no hash. -/
theorem not_arms_of_dormant (hd : st.dormant j = true) : ¬ st.Arms hasRegistry h j := by
  intro ha
  cases j with
  | begin ctx s =>
      rw [dormant, ha.2.1] at hd
      cases hd
  | select l =>
      rw [dormant, ha.2.1] at hd
      cases hd
  | evaluate l =>
      rw [dormant, ha.2.1] at hd
      cases hd
  | write l v =>
      cases v with
      | expired => exact ha
      | met =>
          rw [dormant, ha.2] at hd
          cases hd
  | sent l v =>
      cases v with
      | expired => exact ha
      | met => cases hd
  | wrote l v =>
      cases v with
      | expired => exact ha
      | met => cases hd
  | trigger s sender => cases hd
  | posted s => cases hd
  | rollback s => cases hd
  | resume s => cases hd
  | reset w stuck => cases hd
  | startAll w rest => cases hd
  | registered s => cases hd
  | _ => exact ha

/-- The step marks no row, or every goroutine is dormant. -/
def marksCalmly (st : MonitorState) : MonitorStep → Bool
  | .run i none _ _ => (st.routines[i]?.bind Routine.finishes).isNone || st.routines.all st.dormant
  | _ => true

/-- A mark made while all goroutines are dormant is unarmed. -/
theorem unarmedMarks_of_calm {e : MonitorStep} (hc : st.marksCalmly e = true) :
    UnarmedMarks hasRegistry st e := by
  intro h hmarks harmed
  obtain ⟨k, hk, harms⟩ := harmed
  cases e with
  | run i fault pairPrice reply =>
      obtain ⟨rfl, j, hj, hfinishes⟩ := hmarks
      simp only [marksCalmly, hj, Option.bind_some, hfinishes, Option.isNone_some,
        Bool.false_or, List.all_eq_true] at hc
      exact not_arms_of_dormant (hc k hk) harms
  | _ => exact hmarks

end MonitorState

open MonitorState

/-- If rows are marked DONE only when nothing is armed for them, DONE is
final: the row keeps it, and no later monitor posts the hash. -/
theorem done_is_final {hasRegistry : Bool} {strategies : StrategyTable} {now : ℤ}
    {st st' : MonitorState} {h : String}
    (hrun : (monitorService hasRegistry).Run (UnarmedMarks hasRegistry)
      (initial strategies now) st)
    (hdone : st.Done h)
    (hlater : (monitorService hasRegistry).Run (UnarmedMarks hasRegistry) st st') :
    st'.Done h ∧ ∀ p ∈ st'.posts.drop st.posts.length, p.request.commitmentHash = h →
      p.sender < st.monitors.goroutines.length := by
  obtain ⟨ht, hunarmed⟩ := unarmed_of_done hrun
  obtain ⟨-, hdone', -, new, hposts, hnew⟩ := stays_done ht hdone (hunarmed h hdone) hlater
  refine ⟨hdone', ?_⟩
  intro p hp heq
  rw [hposts, List.drop_left] at hp
  exact absurd heq (hnew p hp)

-- ==================================================================== samples

/-- A MARKET order on the sample hash. -/
def sampleOrder : PendingStrategy :=
  ⟨sampleHash, 31337, .MARKET, "0x0a", "0x0b", "1", "1", 0, "0", 0, "1", "2", none, none,
    .PENDING, 0⟩

/-- The `i`-th goroutine goes on; nothing fails. -/
def goOn (i : ℕ) : MonitorStep := .run i none (.error "") none

/-- The keeper answers the `i`-th goroutine. -/
def answered (i : ℕ) (code : ℕ) : MonitorStep := .run i none (.error "") (some code)

/-- The process boots on an empty table, the order is registered and its
monitor posts it. -/
def untilPosted : List MonitorStep :=
  [goOn 0, goOn 0, goOn 0, .register sampleOrder none, goOn 2,
   goOn 3, goOn 3, goOn 3, goOn 3, goOn 3, goOn 4]

/-- The chain reports the order, and the handler marks it DONE. -/
def untilMarked : List MonitorStep :=
  [.event 0xaa, goOn 5, goOn 5]

/-- The keeper refuses the order after all, and its monitor starts again. -/
def untilPostedAgain : List MonitorStep :=
  [answered 4 422, goOn 4, goOn 4, goOn 6, goOn 6, goOn 6, goOn 6, goOn 6, goOn 7]

/-- The process as it starts on an empty database. -/
def emptyBackend : MonitorState := .initial .empty 0

/-- The keeper accepts the order, and then it is marked. -/
def markedBackend : MonitorState :=
  (monitorService false).endOf marksCalmly (untilPosted ++ answered 4 202 :: untilMarked)
    emptyBackend

/-- The monitor leaves its loop. -/
def settledBackend : MonitorState :=
  (monitorService false).endOf marksCalmly [goOn 5, .leave 3] markedBackend

/-- An order is posted, marked, and posted no more. -/
theorem done_is_final_sample :
    settledBackend.Done sampleHash
      ∧ ∀ p ∈ settledBackend.posts.drop markedBackend.posts.length,
        p.request.commitmentHash = sampleHash →
          p.sender < markedBackend.monitors.goroutines.length := by
  have hmarked : markedBackend.Done sampleHash := by
    have hrow : (markedBackend.strategies.find sampleHash).map PendingStrategy.status
        = some .DONE := by decide +kernel
    exact Option.map_eq_some_iff.1 hrow
  exact done_is_final
    (.endOf (fun _ _ => unarmedMarks_of_calm) (by decide +kernel)) hmarked
    (.endOf (fun _ _ => unarmedMarks_of_calm) (by decide +kernel))

/-- The row is marked while its trigger waits for an answer. -/
def markedEarly : MonitorState :=
  (monitorService false).endOf (fun _ _ => true) (untilPosted ++ untilMarked) emptyBackend

/-- And then the keeper answers. -/
def postedAgain : MonitorState :=
  (monitorService false).endOf (fun _ _ => true) untilPostedAgain markedEarly

/-- The answer of the keeper undoes DONE, and a monitor started after it
posts the order again. -/
theorem rejected_trigger_undoes_done :
    (monitorService false).Run Machine.anyStep (initial .empty 0) markedEarly
      ∧ markedEarly.Done sampleHash
      ∧ (monitorService false).Run Machine.anyStep markedEarly postedAgain
      ∧ ¬ postedAgain.Done sampleHash
      ∧ ∃ p ∈ postedAgain.posts.drop markedEarly.posts.length,
        p.request.commitmentHash = sampleHash
          ∧ ¬ p.sender < markedEarly.monitors.goroutines.length := by
  have hmarked : (markedEarly.strategies.find sampleHash).map PendingStrategy.status
      = some .DONE := by decide +kernel
  have hagain : (postedAgain.strategies.find sampleHash).map PendingStrategy.status
      = some .EXECUTING := by decide +kernel
  refine ⟨.endOf (fun _ _ _ => trivial) (by decide +kernel), Option.map_eq_some_iff.1 hmarked,
    .endOf (fun _ _ _ => trivial) (by decide +kernel), ?_, by decide +kernel⟩
  intro hdone
  obtain ⟨s, hs, hstatus⟩ := hdone
  rw [hs, Option.map_some, hstatus] at hagain
  cases hagain

end Zstrategy.Backend
