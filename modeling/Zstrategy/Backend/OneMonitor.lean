/-
One monitor for a hash, and a gauge that counts them. The map, the
goroutines and the gauge change together, in the sections under the mutex:
a start makes the entry, the context and the goroutine, a stop removes the
entry and cancels the context, and a goroutine leaves only when its
context is cancelled.

Nothing here depends on who calls, or when, or on what the table holds, so
the calls are anybody's, at any time: `anyCallers` is the service after
`RehydrateFromDB` has set the root context, with any goroutine that is no
monitor started at any moment, and the rows changed at will.

# The argument

The gauge is compared with the entries of the map by two lemmas, one for
a start and one for a stop (`Counted.start`, `Counted.stop`). The
goroutines are compared with the entries by `Tallied`: a goroutine whose
context is not cancelled stands in the map under its own hash, and an
entry of the map is that of a living goroutine. As the map has one entry
for a hash, the process has one monitor for it.
-/
import Mathlib.Data.Set.Card
import Zstrategy.Backend.Finality

namespace Zstrategy.Backend

open Lib

-- =================================================================== the gauge

namespace Monitors

variable {m : Monitors} {kind : StrategyKind} {c : String} {s : PendingStrategy} {tm : Tracked}

/-- The hashes with an entry of the kind. -/
def entries (m : Monitors) (kind : StrategyKind) : Set String :=
  {h | ∃ tm, m.stopChans h = some tm ∧ tm.kind = kind}

/-- The gauge counts the entries. -/
def Counted (m : Monitors) : Prop :=
  ∀ kind, (m.entries kind).Finite ∧ m.gauge kind = (m.entries kind).ncard

/-- No entry, and every gauge at zero. -/
theorem counted_empty : empty.Counted := by
  intro kind
  have hnone : empty.entries kind = ∅ := by
    apply Set.eq_empty_of_forall_notMem
    intro h hh
    obtain ⟨tm, htm, -⟩ := hh
    cases htm
  rw [hnone]
  exact ⟨Set.finite_empty, by simp [empty]⟩

/-- A start makes one entry, of its own kind. -/
theorem entries_start (hnone : m.stopChans s.commitmentHash = none) :
    (m.startMonitoring s).entries kind
      = if s.kind = kind then insert s.commitmentHash (m.entries kind) else m.entries kind := by
  apply Set.ext
  intro h
  by_cases heq : h = s.commitmentHash
  · have hentry := startMonitoring_fresh hnone
    by_cases hkind : s.kind = kind
    · rw [if_pos hkind, heq]
      exact ⟨fun _ => Set.mem_insert _ _, fun _ => ⟨_, hentry, hkind⟩⟩
    · rw [if_neg hkind, heq]
      refine ⟨?_, ?_⟩
      · intro hh
        obtain ⟨tm, htm, hk⟩ := hh
        rw [hentry] at htm
        cases htm
        exact absurd hk hkind
      · intro hh
        obtain ⟨tm, htm, -⟩ := hh
        rw [hnone] at htm
        cases htm
  · have hold : h ∈ (m.startMonitoring s).entries kind ↔ h ∈ m.entries kind := by
      unfold entries
      rw [Set.mem_ofPred_eq, Set.mem_ofPred_eq, startMonitoring_other heq]
    rw [hold]
    split
    · rw [Set.mem_insert_iff]
      exact (or_iff_right heq).symm
    · exact Iff.rfl

/-- A stop removes one entry, and only from those of its kind. -/
theorem entries_stop (hc : m.stopChans c = some tm) :
    (m.stopMonitoring c).entries kind
      = if tm.kind = kind then m.entries kind \ {c} else m.entries kind := by
  apply Set.ext
  intro h
  by_cases heq : h = c
  · have hnone := stopMonitoring_self m c
    have hout : h ∉ (m.stopMonitoring c).entries kind := by
      intro hh
      obtain ⟨tm', htm, -⟩ := hh
      rw [heq, hnone] at htm
      cases htm
    refine ⟨fun hh => absurd hh hout, ?_⟩
    intro hh
    split at hh
    · exact absurd heq hh.2
    · rename_i hkind
      obtain ⟨tm', htm, hk⟩ := hh
      rw [heq, hc] at htm
      cases htm
      exact absurd hk hkind
  · have hold : h ∈ (m.stopMonitoring c).entries kind ↔ h ∈ m.entries kind := by
      unfold entries
      rw [Set.mem_ofPred_eq, Set.mem_ofPred_eq, stopMonitoring_other heq]
    rw [hold]
    split
    · exact ⟨fun hh => ⟨hh, heq⟩, fun hh => hh.1⟩
    · exact Iff.rfl

/-- The gauge of a kind goes up by the entry that is made; where the hash
has an entry already, a start does nothing. -/
theorem Counted.start (hm : m.Counted) (s : PendingStrategy) : (m.startMonitoring s).Counted := by
  cases hentry : m.stopChans s.commitmentHash with
  | some tm =>
      have hsame : m.startMonitoring s = m := by
        unfold startMonitoring
        rw [hentry]
      rw [hsame]
      exact hm
  | none =>
      intro kind
      obtain ⟨hfin, hcount⟩ := hm kind
      rw [entries_start hentry]
      have hgauge : (m.startMonitoring s).gauge
          = Function.update m.gauge s.kind (m.gauge s.kind + 1) := by
        unfold startMonitoring
        rw [hentry]
      rw [hgauge]
      by_cases hkind : s.kind = kind
      · rw [if_pos hkind, ← hkind, Function.update_self]
        rw [← hkind] at hfin hcount
        have hout : s.commitmentHash ∉ m.entries s.kind := by
          intro hh
          obtain ⟨tm, htm, -⟩ := hh
          rw [hentry] at htm
          cases htm
        refine ⟨hfin.insert _, ?_⟩
        rw [Set.ncard_insert_of_notMem hout hfin, hcount]
        push_cast
        rfl
      · rw [if_neg hkind, Function.update_of_ne (Ne.symm hkind)]
        exact ⟨hfin, hcount⟩

/-- The gauge goes down by the entry that is removed. Without an entry the
stop does nothing. -/
theorem Counted.stop (hm : m.Counted) (c : String) : (m.stopMonitoring c).Counted := by
  cases hentry : m.stopChans c with
  | none =>
      have hsame : m.stopMonitoring c = m := by
        unfold stopMonitoring
        rw [hentry]
      rw [hsame]
      exact hm
  | some tm =>
      intro kind
      obtain ⟨hfin, hcount⟩ := hm kind
      rw [entries_stop hentry]
      have hgauge : (m.stopMonitoring c).gauge
          = Function.update m.gauge tm.kind (m.gauge tm.kind - 1) := by
        unfold stopMonitoring
        rw [hentry]
      rw [hgauge]
      by_cases hkind : tm.kind = kind
      · rw [if_pos hkind, ← hkind, Function.update_self]
        rw [← hkind] at hfin hcount
        refine ⟨hfin.sdiff, ?_⟩
        have hone := Set.ncard_sdiff_singleton_add_one (s := m.entries tm.kind)
          ⟨tm, hentry, rfl⟩ hfin
        rw [hcount]
        omega
      · rw [if_neg hkind, Function.update_of_ne (Ne.symm hkind)]
        exact ⟨hfin, hcount⟩

end Monitors

-- ============================================================ entries and goroutines

namespace MonitorState

variable {hasRegistry : Bool} {st st' : MonitorState} {i n n' : ℕ} {j k : Routine}
  {h c : String} {s : PendingStrategy}

/-- The `n`-th goroutine monitors `h`, under the context `ctx`. -/
def Watches (st : MonitorState) (n ctx : ℕ) (h : String) : Prop :=
  ∃ j, st.routines[n]? = some j ∧ j.monitor = some (ctx, h)

/-- The map, the goroutines and the gauge agree. -/
structure Tallied (st : MonitorState) : Prop where
  tracks : st.TracksAll
  /-- Contexts are made by starts. -/
  made : ∀ n ctx h, st.Watches n ctx h → ctx < st.monitors.goroutines.length
  spent : ∀ ctx, st.monitors.cancelled ctx = true → ctx < st.monitors.goroutines.length
  /-- A context belongs to one goroutine and one hash. -/
  own : ∀ n n' ctx h h', st.Watches n ctx h → st.Watches n' ctx h' → n = n' ∧ h = h'
  /-- An entry is that of a living goroutine. -/
  lives : ∀ h tm, st.monitors.stopChans h = some tm →
    st.monitors.cancelled tm.ctx = false ∧ ∃ n, st.Watches n tm.ctx h
  counted : st.monitors.Counted

/-- Nobody monitors, and nothing is in the map. -/
theorem tallied_of_empty (hm : st.monitors = .empty) (hr : ∀ j ∈ st.routines, j.monitor = none) :
    st.Tallied := by
  have hnobody : ∀ n ctx h, ¬st.Watches n ctx h := by
    intro n ctx h hw
    obtain ⟨j, hj, hmon⟩ := hw
    rw [hr j (List.mem_of_getElem? hj)] at hmon
    cases hmon
  refine ⟨fun j hj => .of_none (hr j hj), ?_, ?_, ?_, ?_, ?_⟩
  · exact fun n ctx h hw => absurd hw (hnobody n ctx h)
  · intro ctx hctx
    rw [hm] at hctx
    cases hctx
  · exact fun n n' ctx h h' hw => absurd hw (hnobody n ctx h)
  · intro h tm htm
    rw [hm] at htm
    cases htm
  · rw [hm]
    exact Monitors.counted_empty

/-- Rows, requests and clocks do not matter. -/
theorem Tallied.same (ht : st.Tallied) (hm : st'.monitors = st.monitors)
    (hr : st'.routines = st.routines) : st'.Tallied := by
  have hw : ∀ {n ctx h}, st'.Watches n ctx h ↔ st.Watches n ctx h := by
    intro n ctx h
    unfold Watches
    rw [hr]
  refine ⟨?_, ?_, ?_, ?_, ?_, ?_⟩
  · intro j hj
    rw [hr] at hj
    unfold TracksRoutine
    rw [hm]
    exact ht.tracks j hj
  · intro n ctx h hwatch
    rw [hm]
    exact ht.made n ctx h (hw.1 hwatch)
  · rw [hm]
    exact ht.spent
  · exact fun n n' ctx h h' hwatch hwatch' => ht.own n n' ctx h h' (hw.1 hwatch) (hw.1 hwatch')
  · intro h tm htm
    rw [hm] at htm ⊢
    obtain ⟨halive, n, hwatch⟩ := ht.lives h tm htm
    exact ⟨halive, n, hw.2 hwatch⟩
  · rw [hm]
    exact ht.counted

/-- A goroutine that goes on as the same monitor watches the same hash. -/
theorem watches_put (hj : st.routines[i]? = some j) (hk : k.monitor = j.monitor) {ctx : ℕ} :
    (st.put i k).Watches n ctx h ↔ st.Watches n ctx h := by
  obtain ⟨hlt, -⟩ := List.getElem?_eq_some_iff.1 hj
  unfold Watches MonitorState.put
  dsimp only
  by_cases hn : n = i
  · rw [hn, List.getElem?_set_self hlt, hj]
    simp [hk]
  · rw [List.getElem?_set_ne (Ne.symm hn)]

/-- A goroutine goes on with its monitor, or goes on without one. -/
theorem Tallied.put (ht : st.Tallied) (hj : st.routines[i]? = some j)
    (hk : k.monitor = j.monitor) : (st.put i k).Tallied := by
  refine ⟨?_, ?_, ht.spent, ?_, ?_, ht.counted⟩
  · apply ht.tracks.put
    intro ctx h hm
    rw [hk] at hm
    exact ht.tracks j (List.mem_of_getElem? hj) ctx h hm
  · exact fun n ctx h hw => ht.made n ctx h ((watches_put hj hk).1 hw)
  · exact fun n n' ctx h h' hw hw' =>
      ht.own n n' ctx h h' ((watches_put hj hk).1 hw) ((watches_put hj hk).1 hw')
  · intro h tm htm
    obtain ⟨halive, n, hw⟩ := ht.lives h tm htm
    exact ⟨halive, n, (watches_put hj hk).2 hw⟩

/-- A monitor whose context is cancelled leaves. -/
theorem Tallied.leave (ht : st.Tallied) (hj : st.routines[i]? = some j) {ctx : ℕ}
    (hm : j.monitor = some (ctx, h)) (hdead : st.monitors.cancelled ctx = true)
    (hk : k.monitor = none) : (st.put i k).Tallied := by
  obtain ⟨hlt, -⟩ := List.getElem?_eq_some_iff.1 hj
  have hself : ∀ ctx h, ¬(st.put i k).Watches i ctx h := by
    intro ctx h hw
    obtain ⟨k', hk', hm'⟩ := hw
    have hget : (st.put i k).routines[i]? = some k := List.getElem?_set_self hlt
    rw [hget] at hk'
    cases hk'
    rw [hk] at hm'
    cases hm'
  have hother : ∀ {n}, n ≠ i → ∀ ctx h, (st.put i k).Watches n ctx h ↔ st.Watches n ctx h := by
    intro n hn ctx h
    unfold Watches MonitorState.put
    dsimp only
    rw [List.getElem?_set_ne (Ne.symm hn)]
  have hback : ∀ {n ctx h}, (st.put i k).Watches n ctx h → st.Watches n ctx h := by
    intro n ctx h hw
    by_cases hn : n = i
    · rw [hn] at hw
      exact absurd hw (hself ctx h)
    · exact (hother hn ctx h).1 hw
  refine ⟨ht.tracks.put (.of_none hk), ?_, ht.spent, ?_, ?_, ht.counted⟩
  · exact fun n ctx h hw => ht.made n ctx h (hback hw)
  · exact fun n n' ctx h h' hw hw' => ht.own n n' ctx h h' (hback hw) (hback hw')
  · intro h' tm htm
    obtain ⟨halive, n, hw⟩ := ht.lives h' tm htm
    refine ⟨halive, n, (hother ?_ tm.ctx h').2 hw⟩
    -- the goroutine that leaves is not that of an entry
    intro hn
    obtain ⟨j', hj', hm'⟩ := hw
    rw [hn, hj] at hj'
    cases hj'
    rw [hm] at hm'
    cases hm'
    rw [hdead] at halive
    cases halive

/-- A new goroutine watches what it was started for, the others what they
did. -/
theorem watches_spawn {ctx : ℕ} : (st.spawn k).Watches n ctx h ↔
    st.Watches n ctx h ∨ n = st.routines.length ∧ k.monitor = some (ctx, h) := by
  unfold Watches MonitorState.spawn
  dsimp only
  rcases Nat.lt_trichotomy n st.routines.length with hn | hn | hn
  · rw [List.getElem?_append_left hn]
    exact ⟨Or.inl, fun hw => hw.resolve_right fun hnew => absurd hnew.1 (Nat.ne_of_lt hn)⟩
  · rw [hn, List.getElem?_concat_length, List.getElem?_eq_none (le_refl _)]
    simp
  · rw [List.getElem?_append_right (Nat.le_of_lt hn), List.getElem?_eq_none (Nat.le_of_lt hn)]
    have hout : ([k] : List Routine)[n - st.routines.length]? = none := by
      apply List.getElem?_eq_none
      rw [List.length_singleton]
      omega
    rw [hout]
    refine ⟨?_, ?_⟩
    · intro hw
      obtain ⟨j, hj, -⟩ := hw
      cases hj
    · intro hw
      rcases hw with ⟨j, hj, -⟩ | ⟨heq, -⟩
      · cases hj
      · omega

/-- A goroutine that is no monitor changes nothing in the tally. -/
theorem Tallied.spawn (ht : st.Tallied) (hk : k.monitor = none) : (st.spawn k).Tallied := by
  have hw : ∀ {n ctx h}, (st.spawn k).Watches n ctx h ↔ st.Watches n ctx h := by
    intro n ctx h
    rw [watches_spawn, hk]
    simp
  refine ⟨ht.tracks.spawn (.of_none hk), ?_, ht.spent, ?_, ?_, ht.counted⟩
  · exact fun n ctx h hwatch => ht.made n ctx h (hw.1 hwatch)
  · exact fun n n' ctx h h' hwatch hwatch' => ht.own n n' ctx h h' (hw.1 hwatch) (hw.1 hwatch')
  · intro h tm htm
    obtain ⟨halive, n, hwatch⟩ := ht.lives h tm htm
    exact ⟨halive, n, hw.2 hwatch⟩

/-- A start that finds an entry does nothing; one that finds none makes the
entry, the context and the goroutine together. -/
theorem Tallied.start (ht : st.Tallied) (s : PendingStrategy) : (st.start s).Tallied := by
  cases hentry : st.monitors.stopChans s.commitmentHash with
  | some tm =>
      have hsame : st.start s = st := by
        unfold MonitorState.start
        rw [hentry]
      rw [hsame]
      exact ht
  | none =>
      have hmonitors : (st.start s).monitors = st.monitors.startMonitoring s := start_monitors
      have hcancelled : (st.start s).monitors.cancelled = st.monitors.cancelled := by
        rw [hmonitors, Monitors.startMonitoring_cancelled]
      have hlength : (st.start s).monitors.goroutines.length
          = st.monitors.goroutines.length + 1 := by
        rw [hmonitors]
        unfold Monitors.startMonitoring
        rw [hentry]
        exact List.length_append
      have hw : ∀ {n ctx h}, (st.start s).Watches n ctx h ↔ st.Watches n ctx h ∨
          n = st.routines.length ∧ st.monitors.goroutines.length = ctx ∧
            s.commitmentHash = h := by
        intro n ctx h
        have hspawn : (st.start s).routines
            = (st.spawn (.begin st.monitors.goroutines.length s)).routines := by
          unfold MonitorState.start
          rw [hentry]
        have hsame : (st.start s).Watches n ctx h
            ↔ (st.spawn (.begin st.monitors.goroutines.length s)).Watches n ctx h := by
          unfold Watches
          rw [hspawn]
        rw [hsame, watches_spawn]
        simp [Routine.monitor]
      refine ⟨ht.tracks.start s, ?_, ?_, ?_, ?_, ?_⟩
      · intro n ctx h hwatch
        rw [hlength]
        rcases hw.1 hwatch with hold | ⟨-, hnew, -⟩
        · exact Nat.lt_succ_of_lt (ht.made n ctx h hold)
        · omega
      · intro ctx hctx
        rw [hcancelled] at hctx
        rw [hlength]
        exact Nat.lt_succ_of_lt (ht.spent ctx hctx)
      · -- the new context is older than no goroutine
        intro n n' ctx h h' hwatch hwatch'
        rcases hw.1 hwatch with hold | ⟨hn, hctx, hh⟩
        · rcases hw.1 hwatch' with hold' | ⟨-, hctx', -⟩
          · exact ht.own n n' ctx h h' hold hold'
          · have := ht.made n ctx h hold
            omega
        · rcases hw.1 hwatch' with hold' | ⟨hn', -, hh'⟩
          · have := ht.made n' ctx h' hold'
            omega
          · exact ⟨hn.trans hn'.symm, hh.symm.trans hh'⟩
      · intro h tm htm
        rw [hmonitors] at htm
        rw [hcancelled]
        by_cases heq : h = s.commitmentHash
        · rw [heq, Monitors.startMonitoring_fresh hentry] at htm
          cases htm
          refine ⟨?_, _, hw.2 (Or.inr ⟨rfl, rfl, heq.symm⟩)⟩
          -- no cancelled context is this new one
          by_contra hdead
          rw [Bool.not_eq_false] at hdead
          exact absurd (ht.spent _ hdead) (Nat.lt_irrefl _)
        · rw [Monitors.startMonitoring_other heq] at htm
          obtain ⟨halive, n, hwatch⟩ := ht.lives h tm htm
          exact ⟨halive, n, hw.2 (Or.inl hwatch)⟩
      · rw [hmonitors]
        exact ht.counted.start s

/-- A stop cancels the context of the entry it removes, and no other entry
has that context. -/
theorem Tallied.stop (ht : st.Tallied) (c : String) : (st.stop c).Tallied := by
  cases hentry : st.monitors.stopChans c with
  | none =>
      have hsame : st.monitors.stopMonitoring c = st.monitors := by
        unfold Monitors.stopMonitoring
        rw [hentry]
      exact ht.same hsame rfl
  | some tm =>
      obtain ⟨hlived, n, hwatch⟩ := ht.lives c tm hentry
      have hgoroutines : (st.stop c).monitors.goroutines = st.monitors.goroutines := by
        show (st.monitors.stopMonitoring c).goroutines = st.monitors.goroutines
        unfold Monitors.stopMonitoring
        rw [hentry]
      have hcancelled : (st.stop c).monitors.cancelled
          = Function.update st.monitors.cancelled tm.ctx true := by
        show (st.monitors.stopMonitoring c).cancelled = _
        unfold Monitors.stopMonitoring
        rw [hentry]
      refine ⟨ht.tracks.stop c, ?_, ?_, ht.own, ?_, ht.counted.stop c⟩
      · rw [hgoroutines]
        exact ht.made
      · intro ctx hctx
        rw [hgoroutines]
        by_cases heq : ctx = tm.ctx
        · rw [heq]
          exact ht.made n tm.ctx c hwatch
        · rw [hcancelled, Function.update_of_ne heq] at hctx
          exact ht.spent ctx hctx
      · intro h tm' htm
        have hne : h ≠ c := by
          intro heq
          rw [heq] at htm
          rw [show (st.stop c).monitors.stopChans c = none from
            Monitors.stopMonitoring_self st.monitors c] at htm
          cases htm
        have hold : st.monitors.stopChans h = some tm' :=
          (Monitors.stopMonitoring_other hne).symm.trans htm
        obtain ⟨halive, n', hwatch'⟩ := ht.lives h tm' hold
        refine ⟨?_, n', hwatch'⟩
        have hctx : tm'.ctx ≠ tm.ctx := by
          intro heq
          rw [heq] at hwatch'
          exact hne (ht.own n' n tm.ctx h c hwatch' hwatch).2
        rw [hcancelled, Function.update_of_ne hctx]
        exact halive

-- ===================================================================== the steps

/-- While the process is up, the three agree. -/
def Agrees (st : MonitorState) : Prop := st.crashed = false → st.Tallied

/-- A process that has crashed has no monitors to tally. -/
theorem Agrees.crash : st.crash.Agrees := by
  intro hup
  cases hup

/-- Where a hash text is cut, the process goes on to a tallied state or
crashes. -/
theorem Tallied.slice {next : MonitorState} (hn : next.Tallied) : (st.slice h next).Agrees := by
  rcases slice_cases st h next with ⟨-, hs⟩ | hs
  · rw [hs]
    exact fun _ => hn
  · rw [hs]
    exact Agrees.crash

/-- After a failed update the goroutine has the context it had; the hash is
cut for the log. -/
theorem Tallied.updateFailed (ht : st.Tallied) (hj : st.routines[i]? = some j) {l : Loop}
    (v : Verdict) (hl : some (l.ctx, l.hash) = j.monitor) : (st.updateFailed i l v).Agrees := by
  cases v with
  | expired => exact Tallied.slice (ht.put hj hl)
  | met => exact Tallied.slice (ht.put hj hl)

/-- What the boot starts is a goroutine, not yet a monitor. -/
theorem Tallied.boot (ht : st.Tallied) (hj : st.routines[i]? = some j)
    (hm : none = j.monitor) : (st.boot i).Tallied := by
  have hgo := (ht.put (k := .ended) hj hm).spawn (k := .idle ⟨st.now, stuckSweepInterval, 0⟩) rfl
  exact hgo.same rfl rfl

/-- What a goroutine's own step keeps. -/
theorem Tallied.run {fault : Fault} {pairPrice : PairPrice} {reply : Option ℕ}
    (ht : st.Tallied) (hj : st.routines[i]? = some j)
    (h : st.run hasRegistry i fault pairPrice reply j = some st') : st'.Agrees := by
  cases ran_of_run h with
  | begun ctx s => exact fun _ => ht.put hj rfl
  | ticked l hdue => exact fun _ => ht.put hj rfl
  | unjudged l => exact Tallied.slice (ht.put hj rfl)
  | unmet l => exact fun _ => ht.put hj rfl
  | judged l v hjudge => exact Tallied.slice (ht.put hj rfl)
  | cancelled l v hdead => exact ht.updateFailed hj v rfl
  | sent l v halive => exact fun _ => ht.put hj rfl
  | wrote l v t hu =>
      have hput : (st.put i (.wrote l v)).Tallied := ht.put hj rfl
      exact fun _ => hput.same rfl rfl
  | unwritten l v => exact ht.updateFailed hj v rfl
  | expired l =>
      -- the monitor stops itself, or whoever has its hash by now
      exact fun _ => (ht.stop l.hash).put (k := .select l) hj rfl
  | met l =>
      have hstop : ((st.stop l.hash).put i (.select l)).Tallied := (ht.stop l.hash).put hj rfl
      exact fun _ => hstop.spawn rfl
  | posted s sender =>
      have hput : (st.put i (.posted s)).Tallied := ht.put hj rfl
      exact fun _ => hput.same rfl rfl
  | answered s => exact Tallied.slice (ht.put hj rfl)
  | rejected s => exact Tallied.slice (ht.put hj rfl)
  | rolledBack s t hu =>
      have hput : (st.put i (.resume { s with status := .PENDING })).Tallied := ht.put hj rfl
      exact fun _ => hput.same rfl rfl
  | stranded s => exact fun _ => ht.put hj rfl
  | resumed s =>
      have hput : (st.put i .ended).Tallied := ht.put hj rfl
      exact fun _ => hput.start s
  | woken ticker => exact fun _ => ht.put hj rfl
  | noneStuck w => exact fun _ => ht.put hj (by cases w <;> rfl)
  | someStuck w stuck hu => exact fun _ => ht.put hj rfl
  | notReset w stuck => exact fun _ => ht.put hj (by cases w <;> rfl)
  | rehydrated stuck t hu =>
      have hput : (st.put i .list).Tallied := ht.put hj rfl
      exact fun _ => hput.same rfl rfl
  | swept ticker stuck t hu =>
      have hput : (st.put i (.startAll (.periodic ticker)
          (stuck.map fun s => { s with status := .PENDING }))).Tallied := ht.put hj rfl
      exact fun _ => hput.same rfl rfl
  | unlisted => exact fun _ => ht.boot hj rfl
  | listed rows hu => exact fun _ => ht.put hj rfl
  | started w s rest =>
      have hput : (st.put i (.startAll w rest)).Tallied := ht.put hj rfl
      exact fun _ => hput.start s
  | booted => exact fun _ => ht.boot hj rfl
  | slept ticker => exact fun _ => ht.put hj rfl
  | registered s =>
      have hput : (st.put i .ended).Tallied := ht.put hj rfl
      exact fun _ => hput.start s
  | stoppedFirst c => exact fun _ => (ht.stop c).put (k := .finish c false) hj rfl
  | marked c recovers t hu =>
      have hput : (st.put i (.finished c)).Tallied := ht.put hj rfl
      exact fun _ => hput.same rfl rfl
  | unmarked c recovers hsize => exact fun _ => ht.put hj rfl
  | recovered c hsize => exact fun _ => ht.put hj rfl
  | panicked c hsize => exact Agrees.crash
  | stopped c => exact fun _ => (ht.stop c).put (k := .ended) hj rfl

/-- One step of any goroutine, one case for each of them. -/
theorem Agrees.step {l : MonitorStep} (hst : st.Agrees)
    (h : (monitorService hasRegistry).step l st = some st') : st'.Agrees := by
  simp only [monitorService] at h
  split at h
  · cases h
  rename_i hcrashed
  have ht : st.Tallied := hst (eq_false_of_ne_true hcrashed)
  cases l with
  | wait d =>
      cases h
      exact fun _ => ht.same rfl rfl
  | register s fault =>
      simp only [MonitorState.step, MonitorState.register] at h
      split at h
      · split at h
        · cases h
          have hspawn : ∀ row, (st.spawn (.registered row)).Tallied := fun row => ht.spawn rfl
          exact fun _ => (hspawn _).same rfl rfl
        · cases h
          exact hst
      · cases h
  | event topic =>
      simp only [MonitorState.step] at h
      split at h
      · cases h
        exact fun _ => ht.spawn rfl
      · cases h
  | callback c =>
      simp only [MonitorState.step] at h
      split at h
      · cases h
        exact fun _ => ht.spawn rfl
      · cases h
  | run i fault pairPrice reply =>
      simp only [MonitorState.step] at h
      split at h
      · cases h
      · rename_i j hj
        exact ht.run hj h
  | leave i =>
      simp only [MonitorState.step] at h
      split at h
      · rename_i l hj
        split at h
        · rename_i hdead
          cases h
          exact fun _ => ht.leave hj rfl hdead rfl
        · cases h
      · cases h

end MonitorState

-- ==================================================================== any callers

/-- The service's own steps, and what anybody may do to it. -/
inductive CallerStep where
  | own (l : MonitorStep)
  /-- Somebody calls: `StartMonitoring`, `StopMonitoring`, `UpdateStatus`,
  `RehydrateFromDB`, `sweepStuckExecuting`, `triggerKeeper` or the rest of
  any of them, on any strategy. -/
  | call (j : Routine) (hj : j.monitor = none)
  /-- Somebody changes the rows. -/
  | database (t : StrategyTable)

/-- `MonitorService` with arbitrary callers and an arbitrary database. -/
def anyCallers (hasRegistry : Bool) : Machine MonitorState CallerStep where
  step
    | .own l, st => (monitorService hasRegistry).step l st
    | .call j _, st => if st.crashed then none else some (st.spawn j)
    | .database t, st => if st.crashed then none else some { st with strategies := t }

namespace MonitorState

variable {hasRegistry : Bool} {st st' : MonitorState}

/-- A caller's goroutine is no monitor when it starts, and the tally does
not look at the rows. -/
theorem Agrees.any {l : CallerStep} (hst : st.Agrees)
    (h : (anyCallers hasRegistry).step l st = some st') : st'.Agrees := by
  cases l with
  | own l => exact hst.step h
  | call j hj =>
      simp only [anyCallers] at h
      split at h
      · cases h
      · rename_i hcrashed
        cases h
        exact fun _ => (hst (eq_false_of_ne_true hcrashed)).spawn hj
  | database t =>
      simp only [anyCallers] at h
      split at h
      · cases h
      · rename_i hcrashed
        cases h
        exact fun _ => (hst (eq_false_of_ne_true hcrashed)).same rfl rfl

/-- The `n`-th goroutine monitors `h`, and its context is not cancelled. -/
def Lives (st : MonitorState) (n : ℕ) (h : String) : Prop :=
  ∃ ctx, st.Watches n ctx h ∧ st.monitors.cancelled ctx = false

/-- The `n`-th goroutine is the one that the entry of `h` cancels. -/
def Stored (st : MonitorState) (n : ℕ) (h : String) : Prop :=
  ∃ tm, st.monitors.stopChans h = some tm ∧ st.Watches n tm.ctx h

/-- In a tallied state the living monitors are the stored ones. -/
theorem Tallied.lives_iff (ht : st.Tallied) {n : ℕ} {h : String} :
    st.Lives n h ↔ st.Stored n h := by
  refine ⟨?_, ?_⟩
  · intro hlives
    obtain ⟨ctx, ⟨j, hj, hm⟩, halive⟩ := hlives
    obtain ⟨kind, htracked⟩ := ht.tracks j (List.mem_of_getElem? hj) ctx h hm halive
    exact ⟨⟨ctx, kind⟩, htracked, j, hj, hm⟩
  · intro hstored
    obtain ⟨tm, htm, hw⟩ := hstored
    exact ⟨tm.ctx, hw, (ht.lives h tm htm).1⟩

/-- One hash has one entry, and an entry names one goroutine. -/
theorem Tallied.stored_unique (ht : st.Tallied) {n n' : ℕ} {h : String} (hn : st.Stored n h)
    (hn' : st.Stored n' h) : n = n' := by
  obtain ⟨tm, htm, hw⟩ := hn
  obtain ⟨tm', htm', hw'⟩ := hn'
  rw [htm] at htm'
  cases htm'
  exact (ht.own n n' tm.ctx h h hw hw').1

end MonitorState

open MonitorState

/-- Whoever calls, a hash has at most one living monitor, that of its
entry, and the gauge counts the entries of each kind. -/
theorem one_monitor_for_a_hash {strategies : StrategyTable} {now : ℤ} {hasRegistry : Bool}
    {st : MonitorState}
    (hrun : (anyCallers hasRegistry).Run Machine.anyStep (initial strategies now) st)
    (hup : st.crashed = false) :
    (∀ h n n', st.Lives n h → st.Lives n' h → n = n')
      ∧ (∀ h n, st.Lives n h ↔ st.Stored n h)
      ∧ (∀ h, st.monitors.stopChans h ≠ none → ∃ n, st.Stored n h)
      ∧ ∀ kind, (st.monitors.entries kind).Finite
          ∧ st.monitors.gauge kind = (st.monitors.entries kind).ncard := by
  have hagrees : st.Agrees := by
    refine hrun.inv (I := Agrees) (fun st l st' hst _ hstep => hst.any hstep) fun _ => ?_
    refine tallied_of_empty rfl ?_
    intro j hj
    obtain rfl := List.mem_singleton.1 hj
    rfl
  have ht := hagrees hup
  refine ⟨?_, fun h n => ht.lives_iff, ?_, ht.counted⟩
  · intro h n n' hn hn'
    exact ht.stored_unique (ht.lives_iff.1 hn) (ht.lives_iff.1 hn')
  · intro h hentry
    obtain ⟨tm, htm⟩ := Option.ne_none_iff_exists'.1 hentry
    obtain ⟨-, n, hw⟩ := ht.lives h tm htm
    exact ⟨n, tm, htm, hw⟩

/-- A restart for a watched hash, a stop, and a second start. -/
def untilCalledTwice : List CallerStep :=
  [.own (goOn 0), .own (goOn 0), .own (goOn 0), .own (.register sampleOrder none), .own (goOn 2),
   .call (.resume sampleOrder) rfl, .own (goOn 4), .call (.finished sampleOrder.commitmentHash) rfl,
   .own (goOn 5), .call (.registered sampleOrder) rfl, .own (goOn 6), .own (goOn 7)]

def calledBackend : MonitorState :=
  (anyCallers false).endOf (fun _ _ => true) untilCalledTwice emptyBackend

theorem one_monitor_for_a_hash_sample :
    calledBackend.monitors.goroutines.length = 2
      ∧ (∀ h n n', calledBackend.Lives n h → calledBackend.Lives n' h → n = n')
      ∧ calledBackend.Lives 7 sampleOrder.commitmentHash
      ∧ ∀ kind, calledBackend.monitors.gauge kind
          = (calledBackend.monitors.entries kind).ncard := by
  have hrun : (anyCallers false).Run Machine.anyStep (initial .empty 0) calledBackend :=
    .endOf (fun _ _ _ => trivial) (by decide +kernel)
  obtain ⟨hone, -, -, hgauge⟩ := one_monitor_for_a_hash hrun (by decide +kernel)
  refine ⟨by decide +kernel, hone, ?_, fun kind => (hgauge kind).2⟩
  have hloop : (calledBackend.routines[7]?.bind Routine.monitor)
      = some (1, sampleOrder.commitmentHash) := by decide +kernel
  obtain ⟨j, hj, hm⟩ := Option.bind_eq_some_iff.1 hloop
  exact ⟨1, ⟨j, hj, hm⟩, by decide +kernel⟩

end Zstrategy.Backend
