/-
What a synchronous execution gets. A `notifyExecuted` left alone does what
the service's does in one go, and never waits: so a channel that it has
taken is sent to whatever the others do.

# The two sides

A waiter in the `select` has its entry still in the map, or a notification
has taken its channel and is on its way to it, or the channel holds a
record. In the first case no execution of its hash has completed since it
came; in the second the notification needs nobody's help (`inFlight_alone`),
since a send never blocks; in the third there is nothing to show.
-/
import Zstrategy.Backend.WakeUps

namespace Zstrategy.Backend

open Lib Go

open Function (update)

-- ========================================================== one notification

/-- In `notifyExecuted`. -/
def ExecuteAt.Notifying : ExecuteAt → Prop
  | .taking _ => True
  | .sending _ _ => True
  | _ => False

namespace Lobby

/-- The `j`-th event moves, and nobody else. -/
def alone (j : ℕ) : Lobby → LobbyStep → Prop := fun _ l => l = .event j none

/-- A `HandleExecuted` of `h` has completed. -/
def Completed (d : Lobby) (h : String) : Prop :=
  ∃ e ∈ d.events, e.commitmentHash = h ∧ e.stands = .finished

/-- The lobby as the handlers of the service see it. -/
def service (d : Lobby) (monitors : Monitors) (prunes : List String) : Service :=
  ⟨d.executions, d.strategies, monitors, fun h => d.slices.view (.entry h), d.channels, prunes⟩

end Lobby

variable {svc : IndexerService} {d : Lobby} {i j n : ℕ} {e : Executed}
  {rec : ExecutionRecord} {chs : List ℕ} {c : ℕ → Option ExecutionRecord}

/-- Send to each in turn. -/
def sendAll (rec : ExecutionRecord) (chs : List ℕ) (c : ℕ → Option ExecutionRecord) :
    ℕ → Option ExecutionRecord :=
  chs.foldl (fun c ch => trySend ch rec c) c

theorem sendAll_apply : ∀ (chs : List ℕ) (c : ℕ → Option ExecutionRecord),
    sendAll rec chs c i = if i ∈ chs ∧ c i = none then some rec else c i := by
  intro chs
  induction chs with
  | nil =>
      intro c
      simp [sendAll]
  | cons ch chs ih =>
      intro c
      have hstep : sendAll rec (ch :: chs) c = sendAll rec chs (trySend ch rec c) := rfl
      rw [hstep, ih]
      unfold trySend
      by_cases hroom : c ch = none
      · rw [if_pos hroom]
        by_cases hi : i = ch
        · rw [hi, Function.update_self]
          simp [hroom]
        · rw [Function.update_of_ne hi]
          simp [hi]
      · rw [if_neg hroom]
        by_cases hi : i = ch
        · rw [hi]
          simp [hroom]
        · simp [hi]

/-- The loop of `notifyExecuted` ends, whatever the channels hold. -/
theorem sends_alone : ∀ (chs : List ℕ) (d : Lobby) (e : Executed) (n : ℕ),
    d.events[j]? = some e → e.stands = .sending rec n →
    (d.slices.view (.taken j)).drop n = chs →
    (lobby svc).Run (Lobby.alone j) d
      { d.putEvent j e .finished with channels := sendAll rec chs d.channels } := by
  intro chs
  induction chs with
  | nil =>
      intro d e n he ha hdrop
      have hch : (d.slices.view (.taken j))[n]? = none := by
        rw [List.getElem?_eq_none_iff]
        exact List.drop_eq_nil_iff.1 hdrop
      refine .tail (.event j none) (.refl d) rfl ?_
      show (d.events[j]?).bind _ = _
      rw [he]
      show d.moveEvent svc j e none = _
      unfold Lobby.moveEvent
      rw [ha]
      dsimp only
      rw [hch]
      rfl
  | cons ch chs ih =>
      intro d e n he ha hdrop
      have hch : (d.slices.view (.taken j))[n]? = some ch := by
        rw [← List.head?_drop, hdrop]
        rfl
      have hrest : (d.slices.view (.taken j)).drop (n + 1) = chs := by
        rw [← List.tail_drop, hdrop]
        rfl
      have hself : (d.putEvent j e (.sending rec (n + 1))).events[j]?
          = some { e with stands := .sending rec (n + 1) } :=
        List.getElem?_set_self (List.getElem?_eq_some_iff.1 he).1
      have hfirst : (lobby svc).Run (Lobby.alone j) d
          { d.putEvent j e (.sending rec (n + 1)) with
            channels := trySend ch rec d.channels } := by
        refine .tail (.event j none) (.refl d) rfl ?_
        show (d.events[j]?).bind _ = _
        rw [he]
        show d.moveEvent svc j e none = _
        unfold Lobby.moveEvent
        rw [ha]
        dsimp only
        rw [hch]
      have hlast := ih { d.putEvent j e (.sending rec (n + 1)) with
        channels := trySend ch rec d.channels } _ (n + 1) hself rfl hrest
      have hend := hfirst.trans hlast
      unfold Lobby.putEvent at hend ⊢
      dsimp only at hend ⊢
      rw [List.set_set] at hend
      exact hend

/-- A notification left alone is the service's `notifyExecuted`. -/
theorem notify_alone (he : d.events[j]? = some e) (ha : e.stands = .taking rec)
    (monitors : Monitors) (prunes : List String) :
    ∃ d', (lobby svc).Run (Lobby.alone j) d d'
      ∧ d'.events[j]? = some { e with stands := .finished }
      ∧ IndexerService.notifyExecuted rec (d.service monitors prunes)
        = .ok () (d'.service monitors prunes) := by
  have hne : ∀ h, Place.entry h ≠ Place.taken j := fun h heq => by cases heq
  have hlt : j < d.events.length := (List.getElem?_eq_some_iff.1 he).1
  have hself : (d.putEvent j e (.sending rec 0)).events[j]?
      = some { e with stands := .sending rec 0 } := List.getElem?_set_self hlt
  have htake : (lobby svc).Run (Lobby.alone j) d
      { d.putEvent j e (.sending rec 0) with
        slices := d.slices.move (.entry rec.commitmentHash) (.taken j) } := by
    refine .tail (.event j none) (.refl d) rfl ?_
    show (d.events[j]?).bind _ = _
    rw [he]
    show d.moveEvent svc j e none = _
    unfold Lobby.moveEvent
    rw [ha]
  have hview : (d.slices.move (.entry rec.commitmentHash) (.taken j)).view (.taken j)
      = d.slices.view (.entry rec.commitmentHash) := Slices.view_move_dst (hne _)
  refine ⟨_, htake.trans (sends_alone _ _ _ 0 hself rfl hview), ?_, ?_⟩
  · exact List.getElem?_set_self (List.length_set.symm ▸ hlt)
  · unfold IndexerService.notifyExecuted Go.modify Lobby.service
    dsimp only [Lobby.putEvent]
    have hentries : (fun h => (d.slices.move (.entry rec.commitmentHash) (.taken j)).view
        (.entry h)) = update (fun h => d.slices.view (.entry h)) rec.commitmentHash [] := by
      funext h
      by_cases hh : h = rec.commitmentHash
      · rw [hh, Function.update_self, Slices.view_move_src]
      · rw [Function.update_of_ne hh, Slices.view_move_of_ne (entry_ne hh) (hne h)]
    have hchannels : sendAll rec (d.slices.view (.entry rec.commitmentHash)) d.channels
        = fun ch => if ch ∈ d.slices.view (.entry rec.commitmentHash) ∧ d.channels ch = none
          then some rec else d.channels ch := by
      funext ch
      exact sendAll_apply _ _
    rw [hentries, hchannels]

/-- A channel that is taken gets a record without anybody else's help. -/
theorem inFlight_alone {h : String} (hf : d.InFlight i h) :
    ∃ j d', (lobby svc).Run (Lobby.alone j) d d' ∧ d'.channels i ≠ none := by
  obtain ⟨j, e, rec, n, he, -, ha, hmem⟩ := hf
  refine ⟨j, _, sends_alone _ d e n he ha rfl, ?_⟩
  show sendAll rec _ d.channels i ≠ none
  rw [sendAll_apply]
  split
  · exact Option.some_ne_none rec
  · rename_i hfull
    exact fun hnone => hfull ⟨hmem, hnone⟩

theorem notifying_ends (he : d.events[j]? = some e) (ha : e.stands.Notifying) :
    ∃ d', (lobby svc).Run (Lobby.alone j) d d'
      ∧ d'.events[j]? = some { e with stands := .finished } := by
  cases hstands : e.stands with
  | taking rec =>
      obtain ⟨d', hrun, hend, -⟩ := notify_alone he hstands Monitors.empty []
      exact ⟨d', hrun, hend⟩
  | sending rec n =>
      refine ⟨_, sends_alone _ d e n he hstands rfl, ?_⟩
      exact List.getElem?_set_self (List.getElem?_eq_some_iff.1 he).1
  | _ =>
      rw [hstands] at ha
      exact ha.elim

-- ================================================================= the waiters

theorem lobby_inv {d₀ : Lobby} (hopen : d₀.Opening)
    (hrun : (lobby svc).Run Machine.anyStep d₀ d) : d.Inv :=
  hrun.inv (fun _ l _ hd _ hs => hd.step l hs) hopen.inv

/-- No wake-up is lost: a waiter in the `select` whose channel is empty,
although an execution of its hash has completed, has a notification on
its way, which its sender brings without anybody else's help. -/
theorem no_wake_up_lost (svc : IndexerService) {d₀ d : Lobby} (hopen : d₀.Opening)
    (hrun : (lobby svc).Run Machine.anyStep d₀ d) :
    (∀ (i : ℕ) (w : Waiter), d.waiters[i]? = some w → w.stands = .waiting →
      d.channels i = none → d.Completed w.commitmentHash →
      d.InFlight i w.commitmentHash
        ∧ ∃ j d', (lobby svc).Run (Lobby.alone j) d d' ∧ d'.channels i ≠ none)
    ∧ (∀ w ∈ d.waiters, ∀ rec, w.stands = .returned (.record rec) →
      rec.Fits w.commitmentHash)
    ∧ (∀ (j : ℕ) (e : Executed), d.events[j]? = some e → e.stands.Notifying →
      ∃ d', (lobby svc).Run (Lobby.alone j) d d'
        ∧ d'.events[j]? = some { e with stands := .finished })
    ∧ ((∀ w ∈ d.waiters, ∃ r, w.stands = .returned r) →
      ∀ h, d.slices.var (.entry h) = none) := by
  have hd := lobby_inv hopen hrun
  refine ⟨?_, ?_, fun _ _ => notifying_ends, ?_⟩
  · intro i w hw hat hempty hdone
    have hok := hd.waiters i w hw
    rcases hok.reached (Or.inr hat) with hentry | hflight | hfull
    · obtain ⟨e, hmem, hh, hfinished⟩ := hdone
      obtain ⟨j, he⟩ := List.getElem?_of_mem hmem
      apply absurd _ (hok.quiet hat hentry j e he hh)
      rw [hfinished]
      trivial
    · exact ⟨hflight, inFlight_alone hflight⟩
    · exact absurd hempty hfull
  · intro w hmem rec hat
    obtain ⟨i, hw⟩ := List.getElem?_of_mem hmem
    apply (hd.waiters i w hw).result
    rw [hat]
    rfl
  · intro hall h
    by_contra hvar
    obtain ⟨i, hi⟩ := List.exists_mem_of_ne_nil _ (hd.entries h hvar)
    obtain ⟨w, hw, -, hattached⟩ := hd.attached h i hi
    obtain ⟨r, hr⟩ := hall w (List.mem_of_getElem? hw)
    rw [hr] at hattached
    exact hattached

-- ==================================================================== samples

/-- An execution of `sampleHash`, as the indexer hands it over. -/
def sampleExecution : Executed :=
  ⟨sampleHash, "0xbeef", 31337, 7, 60000, 1000, .labelling⟩

/-- The tables are empty. -/
def openedLobby (waiters events : ℕ) : Lobby :=
  ⟨.empty, .empty, .empty, fun _ => none, List.replicate waiters ⟨sampleHash, .reading⟩,
    List.replicate events sampleExecution⟩

theorem openedLobby_opening (waiters events : ℕ) : (openedLobby waiters events).Opening := by
  refine ⟨rfl, fun _ => rfl, ?_, ?_⟩
  · intro w hw
    rw [List.eq_of_mem_replicate hw]
  · intro e he
    rw [List.eq_of_mem_replicate he]
    rfl

/-- `n` steps of one waiter. -/
def waits (i n : ℕ) (pick : Pick) : List LobbyStep := List.replicate n (.wait i none 1 pick)

/-- `n` steps of one event. -/
def executes (j n : ℕ) : List LobbyStep := List.replicate n (.event j none)

/-- Two wait, one gives up, and the other is told. -/
def toldLobby : Lobby :=
  (lobby productionIndexer).endOf (fun _ _ => true)
    (waits 0 3 .timer ++ waits 1 3 .channel ++ executes 0 4 ++ waits 0 2 .timer ++ executes 0 4
      ++ waits 1 2 .channel) (openedLobby 2 1)

theorem no_wake_up_lost_sample :
    toldLobby.waiters = [⟨sampleHash, .returned .timeout⟩,
        ⟨sampleHash, .returned (.record (sampleExecution.record .LIMIT))⟩]
      ∧ (sampleExecution.record .LIMIT).Fits sampleHash
      ∧ ∀ h, toldLobby.slices.var (.entry h) = none := by
  have hrun : (lobby productionIndexer).Run Machine.anyStep (openedLobby 2 1) toldLobby :=
    .endOf (fun _ _ _ => trivial) (by decide +kernel)
  have hends : toldLobby.waiters = [⟨sampleHash, .returned .timeout⟩,
      ⟨sampleHash, .returned (.record (sampleExecution.record .LIMIT))⟩] := by decide +kernel
  obtain ⟨-, hfits, -, hnone⟩ :=
    no_wake_up_lost productionIndexer (openedLobby_opening 2 1) hrun
  rw [hends] at hfits hnone
  refine ⟨hends, hfits _ (List.mem_cons_of_mem _ List.mem_cons_self) _ rfl, hnone ?_⟩
  intro w hw
  rcases List.mem_cons.1 hw with rfl | hw
  · exact ⟨_, rfl⟩
  · obtain rfl := List.mem_singleton.1 hw
    exact ⟨_, rfl⟩

/-- The same event handed over twice: the second `HandleExecuted` finds the
waiter gone from `executedWaiters`, and completes between the first one's
section under the mutex and its send. -/
def racedLobby : Lobby :=
  (lobby productionIndexer).endOf (fun _ l => l.fault = none)
    (waits 0 3 .channel ++ executes 0 6 ++ executes 1 5) (openedLobby 1 2)

/-- A second execution completes while the waiter's channel is empty. -/
theorem second_execution_overtakes :
    (openedLobby 1 2).Opening
      ∧ (lobby productionIndexer).Run (fun _ l => l.fault = none) (openedLobby 1 2) racedLobby
      ∧ racedLobby.waiters = [⟨sampleHash, .waiting⟩]
      ∧ racedLobby.channels 0 = none
      ∧ racedLobby.Completed sampleHash := by
  refine ⟨openedLobby_opening 1 2, ?_, by decide +kernel, by decide +kernel, ?_⟩
  · exact .endOf (fun _ _ hc => of_decide_eq_true hc) (by decide +kernel)
  · refine ⟨{ sampleExecution with stands := .finished }, ?_, rfl, rfl⟩
    have hevents : racedLobby.events[1]?
        = some { sampleExecution with stands := .finished } := by decide +kernel
    exact List.mem_of_getElem? hevents

end Zstrategy.Backend
