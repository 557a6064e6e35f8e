/-
No lost wake-up. A waiter between its append and its removal is in
`executedWaiters`, or in the slice of a `notifyExecuted` that has yet to
send to it, or has a record in its channel. If it is in `executedWaiters`
and in the `select`, no execution of its hash has got past the mutex: the
second read would have found the record.

# The invariant

`Inv` says this of every waiter (`Waiter.Ok`), and of every event what it
has read and written (`Executed.Ok`). The slices are `Apart` throughout,
so that a removal in place cannot change what a notifier walks; the rest
of the argument sees them as lists.

A step moves one waiter or one event. What it does to the rest is small: the
slices and the channels of `Lib.Slices` and `trySend` change at one place,
and the record table only `Advances`. So each kind of step has one lemma for
the conjuncts it touches (`Lobby.Inv.attach`, `.receive`, `.remove`,
`.take`, `.send`), and the two lemmas for a move of a waiter and of an event
go through where it stands.
-/
import Zstrategy.Backend.Waiters

namespace Zstrategy.Backend

open Lib Go

open Function (update)

-- ================================================================ vocabulary

/-- The record of `h` says executed. -/
def IsExecuted (h : String) (t : ExecutionTable) : Prop :=
  ∃ rec, t.find h = some rec ∧ rec.status = .executed

/-- The record of `h`, if there is one, says executed. -/
def OnlyExecuted (h : String) (t : ExecutionTable) : Prop :=
  ∀ rec, t.find h = some rec → rec.status = .executed

/-- An executed record of `h`. -/
def ExecutionRecord.Fits (h : String) (rec : ExecutionRecord) : Prop :=
  rec.commitmentHash = h ∧ rec.status = .executed

/-- Between the append and the end of the removal. -/
def WaitAt.Attached : WaitAt → Prop
  | .rereading => True
  | .waiting => True
  | .removing _ => True
  | _ => False

/-- The record that a waiter returns. -/
def WaitAt.result : WaitAt → Option ExecutionRecord
  | .removing (.record rec) => some rec
  | .returned (.record rec) => some rec
  | _ => none

/-- Past the mutex of `notifyExecuted`. -/
def ExecuteAt.Past : ExecuteAt → Prop
  | .sending _ _ => True
  | .finished => True
  | _ => False

/-- The record that an event is to save or to send. -/
def ExecuteAt.carries : ExecuteAt → Option ExecutionRecord
  | .saving rec => some rec
  | .taking rec => some rec
  | .sending rec _ => some rec
  | _ => none

/-- Past the writes to the table. -/
def ExecuteAt.Written : ExecuteAt → Prop
  | .taking _ => True
  | .sending _ _ => True
  | .finished => True
  | _ => False

/-- An event that is past the mutex has written its record. -/
theorem ExecuteAt.Past.written {a : ExecuteAt} (h : a.Past) : a.Written := by
  cases a with
  | sending rec k => trivial
  | finished => trivial
  | _ => exact h.elim

namespace Lobby

/-- The hash that the `i`-th waiter waits for. -/
def hashOf (d : Lobby) (i : ℕ) : Option String :=
  (d.waiters[i]?).map Waiter.commitmentHash

/-- An execution of `h` has taken the channel of the `i`-th waiter, and has
yet to send to it. -/
def InFlight (d : Lobby) (i : ℕ) (h : String) : Prop :=
  ∃ j e rec k, d.events[j]? = some e ∧ e.commitmentHash = h ∧ e.stands = .sending rec k
    ∧ i ∈ (d.slices.view (.taken j)).drop k

/-- Somebody will send to the channel, or has. -/
def Reached (d : Lobby) (i : ℕ) (h : String) : Prop :=
  i ∈ d.slices.view (.entry h) ∨ d.InFlight i h ∨ d.channels i ≠ none

/-- No execution of `h` is past the mutex. -/
def Quiet (d : Lobby) (h : String) : Prop :=
  ∀ (j : ℕ) (e : Executed), d.events[j]? = some e → e.commitmentHash = h → ¬e.stands.Past

end Lobby

structure Waiter.Ok (d : Lobby) (i : ℕ) (w : Waiter) : Prop where
  reached : w.stands = .rereading ∨ w.stands = .waiting → d.Reached i w.commitmentHash
  quiet : w.stands = .waiting → i ∈ d.slices.view (.entry w.commitmentHash) →
    d.Quiet w.commitmentHash
  result : ∀ rec, w.stands.result = some rec → rec.Fits w.commitmentHash

structure Executed.Ok (d : Lobby) (j : ℕ) (e : Executed) : Prop where
  reads : ∀ kind, e.stands = .readingBack kind → OnlyExecuted e.commitmentHash d.executions
  carries : ∀ rec, e.stands.carries = some rec → rec.Fits e.commitmentHash
  written : e.stands.Written → IsExecuted e.commitmentHash d.executions
  rest : ∀ rec k, e.stands = .sending rec k →
    ∀ i ∈ (d.slices.view (.taken j)).drop k, d.hashOf i = some e.commitmentHash

structure Lobby.Inv (d : Lobby) : Prop where
  apart : d.slices.Apart
  entries : ∀ h, d.slices.var (.entry h) ≠ none → d.slices.view (.entry h) ≠ []
  nodup : ∀ h, (d.slices.view (.entry h)).Nodup
  attached : ∀ (h : String) (i : ℕ), i ∈ d.slices.view (.entry h) →
    ∃ w : Waiter, d.waiters[i]? = some w ∧ w.commitmentHash = h ∧ w.stands.Attached
  channels : ∀ (i : ℕ) (rec : ExecutionRecord), d.channels i = some rec →
    ∃ h, d.hashOf i = some h ∧ rec.Fits h
  waiters : ∀ (i : ℕ) (w : Waiter), d.waiters[i]? = some w → w.Ok d i
  events : ∀ (j : ℕ) (e : Executed), d.events[j]? = some e → e.Ok d j

variable {d : Lobby} {i j k : ℕ} {w : Waiter} {e : Executed} {h : String}

/-- It holds before anybody has moved. -/
theorem Lobby.Opening.inv (hd : d.Opening) : d.Inv := by
  have hvar : ∀ x, d.slices.var x = none := by
    intro x
    rw [hd.slices]
    rfl
  have hview : ∀ x, d.slices.view x = [] := fun x => Slices.view_of_nil (hvar x)
  refine ⟨?_, ?_, ?_, ?_, ?_, ?_, ?_⟩
  · rw [hd.slices]
    exact Slices.apart_empty
  · exact fun h hne => absurd (hvar _) hne
  · intro h
    rw [hview]
    exact List.nodup_nil
  · intro h i hi
    rw [hview] at hi
    exact absurd hi List.not_mem_nil
  · intro i rec hi
    rw [hd.channels] at hi
    cases hi
  · intro i w hw
    have hstands := hd.waiters w (List.mem_of_getElem? hw)
    refine ⟨fun hat => ?_, fun hat => ?_, fun rec hrec => ?_⟩
    · rw [hstands] at hat
      rcases hat with hat | hat <;> cases hat
    · rw [hstands] at hat
      cases hat
    · rw [hstands] at hrec
      cases hrec
  · intro j e he
    have hstands := hd.events e (List.mem_of_getElem? he)
    refine ⟨fun kind hat => ?_, fun rec hrec => ?_, fun hat => ?_, fun rec k hat => ?_⟩
    · rw [hstands] at hat
      cases hat
    · rw [hstands] at hrec
      cases hrec
    · rw [hstands] at hat
      exact hat.elim
    · rw [hstands] at hat
      cases hat

-- ================================================================ the slices

section Slices

variable {s : Channels} {x : Place} {spare : ℕ}

/-- Entries of two hashes are two variables. -/
theorem entry_ne {h h' : String} (hne : h' ≠ h) : Place.entry h' ≠ Place.entry h :=
  fun heq => hne (Place.entry.inj heq)

/-- A removal in place shares nothing. -/
theorem apart_dropChannel (hs : s.Apart) : (dropChannel h i s).Apart := by
  unfold dropChannel
  split
  · rename_i hmem
    exact hs.deleteAt (List.idxOf_lt_length_of_mem hmem)
  · exact hs

/-- It removes the channel from the entry. -/
theorem view_dropChannel_self (hs : s.Apart) :
    (dropChannel h i s).view (.entry h) = (s.view (.entry h)).erase i := by
  unfold dropChannel
  split
  · rename_i hmem
    rw [hs.view_deleteAt_self (List.idxOf_lt_length_of_mem hmem),
      List.erase_eq_eraseIdx_of_idxOf rfl]
  · rename_i hmem
    rw [List.erase_of_not_mem hmem]

/-- Other variables show what they showed. -/
theorem view_dropChannel_of_ne (hs : s.Apart) (hx : x ≠ .entry h) :
    (dropChannel h i s).view x = s.view x := by
  unfold dropChannel
  split
  · exact hs.view_deleteAt_of_ne hx
  · rfl

/-- Their pointers stay. -/
theorem var_dropChannel_of_ne (hx : x ≠ .entry h) : (dropChannel h i s).var x = s.var x := by
  unfold dropChannel
  split
  · exact Slices.var_deleteAt_of_ne hx
  · rfl

/-- An entry that has become empty is deleted from the map, any other is
kept. -/
theorem remove_cases (h : String) (i : ℕ) (s : Channels) :
    ((dropChannel h i s).view (.entry h) = []
      ∧ removeExecutedWaiter h i s = (dropChannel h i s).clear (.entry h))
    ∨ ((dropChannel h i s).view (.entry h) ≠ []
      ∧ removeExecutedWaiter h i s = dropChannel h i s) := by
  by_cases hnil : (dropChannel h i s).view (.entry h) = []
  · exact Or.inl ⟨hnil, if_pos hnil⟩
  · exact Or.inr ⟨hnil, if_neg hnil⟩

/-- The removal of a waiter shares nothing. -/
theorem apart_remove (hs : s.Apart) : (removeExecutedWaiter h i s).Apart := by
  rcases remove_cases h i s with ⟨-, heq⟩ | ⟨-, heq⟩
  · rw [heq]
    exact (apart_dropChannel hs).clear
  · rw [heq]
    exact apart_dropChannel hs

/-- Its channel is gone from the entry. -/
theorem view_remove_self (hs : s.Apart) :
    (removeExecutedWaiter h i s).view (.entry h) = (s.view (.entry h)).erase i := by
  rcases remove_cases h i s with ⟨hnil, heq⟩ | ⟨-, heq⟩
  · rw [heq, Slices.view_clear_self, ← view_dropChannel_self hs]
    exact hnil.symm
  · rw [heq]
    exact view_dropChannel_self hs

/-- Other variables show what they showed. -/
theorem view_remove_of_ne (hs : s.Apart) (hx : x ≠ .entry h) :
    (removeExecutedWaiter h i s).view x = s.view x := by
  rcases remove_cases h i s with ⟨-, heq⟩ | ⟨-, heq⟩
  · rw [heq, Slices.view_clear_of_ne hx]
    exact view_dropChannel_of_ne hs hx
  · rw [heq]
    exact view_dropChannel_of_ne hs hx

/-- Their pointers stay. -/
theorem var_remove_of_ne (hx : x ≠ .entry h) :
    (removeExecutedWaiter h i s).var x = s.var x := by
  rcases remove_cases h i s with ⟨-, heq⟩ | ⟨-, heq⟩
  · rw [heq, Slices.var_clear_of_ne hx]
    exact var_dropChannel_of_ne hx
  · rw [heq]
    exact var_dropChannel_of_ne hx

/-- No entry is left empty. -/
theorem entries_remove (hs : ∀ h, s.var (.entry h) ≠ none → s.view (.entry h) ≠ [])
    (ha : s.Apart) (h' : String)
    (hvar : (removeExecutedWaiter h i s).var (.entry h') ≠ none) :
    (removeExecutedWaiter h i s).view (.entry h') ≠ [] := by
  by_cases hh : h' = h
  · rw [hh] at hvar ⊢
    rcases remove_cases h i s with ⟨-, heq⟩ | ⟨hne, heq⟩
    · rw [heq] at hvar
      exact absurd Slices.var_clear_self hvar
    · rw [heq]
      exact hne
  · rw [var_remove_of_ne (entry_ne hh)] at hvar
    rw [view_remove_of_ne ha (entry_ne hh)]
    exact hs h' hvar

/-- After an append too, no entry in the map is empty. -/
theorem entries_append (hs : ∀ h, s.var (.entry h) ≠ none → s.view (.entry h) ≠ [])
    (ha : s.Apart) (h' : String)
    (hvar : (s.append (.entry h) i spare).var (.entry h') ≠ none) :
    (s.append (.entry h) i spare).view (.entry h') ≠ [] := by
  by_cases heq : h' = h
  · rw [heq, ha.view_append_self]
    exact List.append_ne_nil_of_right_ne_nil _ (List.cons_ne_nil _ _)
  · rw [Slices.var_append_of_ne (entry_ne heq)] at hvar
    rw [ha.view_append_of_ne (entry_ne heq)]
    exact hs h' hvar

end Slices

-- ============================================================ one waiter moves

section Waiters

/-- The waiters after one of them has moved. -/
theorem getElem?_putWaiter (hw : d.waiters[i]? = some w) (a : WaitAt) (k : ℕ) :
    (d.putWaiter i w a).waiters[k]?
      = if k = i then some { w with stands := a } else d.waiters[k]? := by
  obtain ⟨hlt, -⟩ := List.getElem?_eq_some_iff.1 hw
  unfold Lobby.putWaiter
  by_cases hk : k = i
  · rw [if_pos hk, hk]
    exact List.getElem?_set_self hlt
  · rw [if_neg hk]
    exact List.getElem?_set_ne (Ne.symm hk)

/-- Each still waits for its hash. -/
theorem hashOf_putWaiter (hw : d.waiters[i]? = some w) (a : WaitAt) (k : ℕ) :
    (d.putWaiter i w a).hashOf k = d.hashOf k := by
  unfold Lobby.hashOf
  rw [getElem?_putWaiter hw]
  by_cases hk : k = i
  · rw [if_pos hk, hk, hw]
    rfl
  · rw [if_neg hk]

/-- What the slices hold after a waiter's step: `d'` is the lobby before it
with `i` standing at `a`, other slices, and other channels. -/
theorem Lobby.Inv.waiter {s : Channels} {c : ℕ → Option ExecutionRecord} {a : WaitAt}
    (hd : d.Inv) (hw : d.waiters[i]? = some w) (hs : s.Apart)
    (hentries : ∀ h, s.var (.entry h) ≠ none → s.view (.entry h) ≠ [])
    (hnodup : ∀ h, (s.view (.entry h)).Nodup)
    (hself : ∀ h, i ∈ s.view (.entry h) → h = w.commitmentHash ∧ a.Attached)
    (hothers : ∀ h k, k ≠ i → (k ∈ s.view (.entry h) ↔ k ∈ d.slices.view (.entry h)))
    (htaken : ∀ j, s.view (.taken j) = d.slices.view (.taken j))
    (hchan : ∀ k, k ≠ i → c k = d.channels k)
    (hchan' : ∀ rec, c i = some rec → d.channels i = some rec)
    (hok : ({ w with stands := a } : Waiter).Ok
      { d.putWaiter i w a with slices := s, channels := c } i) :
    ({ d.putWaiter i w a with slices := s, channels := c } : Lobby).Inv := by
  have hhash : ∀ k, ({ d.putWaiter i w a with slices := s, channels := c } : Lobby).hashOf k
      = d.hashOf k := fun k => hashOf_putWaiter hw a k
  refine ⟨hs, hentries, hnodup, ?_, ?_, ?_, ?_⟩
  · intro h k hk
    by_cases hki : k = i
    · rw [hki] at hk ⊢
      obtain ⟨hh, ha⟩ := hself h hk
      exact ⟨{ w with stands := a }, (getElem?_putWaiter hw a i).trans (if_pos rfl), hh.symm, ha⟩
    · obtain ⟨v, hv, hrest⟩ := hd.attached h k ((hothers h k hki).1 hk)
      exact ⟨v, (getElem?_putWaiter hw a k).trans ((if_neg hki).trans hv), hrest⟩
  · intro k rec hk
    rw [hhash]
    by_cases hki : k = i
    · rw [hki] at hk ⊢
      exact hd.channels i rec (hchan' rec hk)
    · exact hd.channels k rec ((hchan k hki).symm.trans hk)
  · intro k v hv
    have hv' : (if k = i then some { w with stands := a } else d.waiters[k]?) = some v :=
      (getElem?_putWaiter hw a k).symm.trans hv
    by_cases hki : k = i
    · rw [if_pos hki] at hv'
      cases hv'
      rw [hki]
      exact hok
    · rw [if_neg hki] at hv'
      have hold := hd.waiters k v hv'
      refine ⟨fun hat => ?_, fun hat hk => ?_, hold.result⟩
      · rcases hold.reached hat with hmem | ⟨j, e, rec, n, he, heh, hsend, hmem⟩ | hne
        · exact Or.inl ((hothers _ k hki).2 hmem)
        · refine Or.inr (Or.inl ⟨j, e, rec, n, he, heh, hsend, ?_⟩)
          show k ∈ (s.view (.taken j)).drop n
          rw [htaken]
          exact hmem
        · refine Or.inr (Or.inr ?_)
          show c k ≠ none
          rw [hchan k hki]
          exact hne
      · exact hold.quiet hat ((hothers _ k hki).1 hk)
  · intro j e he
    have hold := hd.events j e he
    refine ⟨hold.reads, hold.carries, hold.written, ?_⟩
    intro rec n hat k hk
    rw [hhash]
    apply hold.rest rec n hat k
    rw [← htaken]
    exact hk

/-- A step that only moves the waiter. -/
theorem Lobby.Inv.putWaiter {a : WaitAt} (hd : d.Inv) (hw : d.waiters[i]? = some w)
    (ha : w.stands.Attached → a.Attached) (hok : ({ w with stands := a } : Waiter).Ok d i) :
    (d.putWaiter i w a).Inv := by
  refine hd.waiter hw hd.apart hd.entries hd.nodup ?_ (fun _ _ _ => Iff.rfl) (fun _ => rfl)
    (fun _ _ => rfl) (fun _ => id) ⟨hok.reached, hok.quiet, hok.result⟩
  intro h hmem
  obtain ⟨v, hv, hh, hat⟩ := hd.attached h i hmem
  rw [hw] at hv
  cases hv
  exact ⟨hh.symm, ha hat⟩

/-- A step that only moves the waiter, to where it does not wait to be sent
to. -/
theorem Lobby.Inv.retire {a : WaitAt} (hd : d.Inv) (hw : d.waiters[i]? = some w)
    (ha : w.stands.Attached → a.Attached) (hrest : ¬(a = .rereading ∨ a = .waiting))
    (hres : ∀ rec, a.result = some rec → rec.Fits w.commitmentHash) :
    (d.putWaiter i w a).Inv := by
  apply hd.putWaiter hw ha
  exact ⟨fun hat => absurd hat hrest, fun hat => absurd (Or.inr hat) hrest, hres⟩

/-- Who has not attached is in no entry. -/
theorem Lobby.Inv.not_entered (hd : d.Inv) (hw : d.waiters[i]? = some w)
    (ha : ¬w.stands.Attached) (h : String) : i ∉ d.slices.view (.entry h) := by
  intro hmem
  obtain ⟨v, hv, -, hat⟩ := hd.attached h i hmem
  rw [hw] at hv
  cases hv
  exact ha hat

/-- Who is in an entry waits for its hash. -/
theorem Lobby.Inv.entered (hd : d.Inv) (hw : d.waiters[i]? = some w)
    (hmem : i ∈ d.slices.view (.entry h)) : h = w.commitmentHash := by
  obtain ⟨v, hv, hh, -⟩ := hd.attached h i hmem
  rw [hw] at hv
  cases hv
  exact hh.symm

/-- A waiter appends its channel to the entry of its hash. -/
theorem Lobby.Inv.attach (hd : d.Inv) (hw : d.waiters[i]? = some w)
    (ha : w.stands = .attaching) (spare : ℕ) :
    ({ d.putWaiter i w .rereading with
        slices := d.slices.append (.entry w.commitmentHash) i spare } : Lobby).Inv := by
  have hout : ∀ h, i ∉ d.slices.view (.entry h) := by
    apply hd.not_entered hw
    rw [ha]
    exact id
  have hview : ∀ h k, k ∈ (d.slices.append (.entry w.commitmentHash) i spare).view (.entry h)
      ↔ k ∈ d.slices.view (.entry h) ∨ (h = w.commitmentHash ∧ k = i) := by
    intro h k
    by_cases hh : h = w.commitmentHash
    · rw [hh, hd.apart.view_append_self, List.mem_append, List.mem_singleton]
      simp
    · rw [hd.apart.view_append_of_ne (entry_ne hh)]
      simp [hh]
  refine hd.waiter hw hd.apart.append ?_ ?_ ?_ ?_ ?_ (fun _ _ => rfl) (fun _ => id) ?_
  · exact fun h => entries_append hd.entries hd.apart h
  · intro h
    by_cases hh : h = w.commitmentHash
    · rw [hh, hd.apart.view_append_self]
      refine List.nodup_append.2 ⟨hd.nodup _, List.nodup_singleton i, ?_⟩
      intro k hk k' hk' heq
      rw [heq, List.mem_singleton.1 hk'] at hk
      exact hout _ hk
    · rw [hd.apart.view_append_of_ne (entry_ne hh)]
      exact hd.nodup h
  · intro h hmem
    rcases (hview h i).1 hmem with hold | ⟨hh, -⟩
    · exact absurd hold (hout h)
    · exact ⟨hh, trivial⟩
  · intro h k hki
    rw [hview]
    exact or_iff_left fun hnew => hki hnew.2
  · intro j
    apply hd.apart.view_append_of_ne
    intro heq
    cases heq
  · refine ⟨fun _ => Or.inl ((hview _ i).2 (Or.inr ⟨rfl, rfl⟩)), ?_, ?_⟩
    · intro hat
      cases hat
    · intro rec hrec
      cases hrec

/-- A waiter takes a record out of its channel. -/
theorem Lobby.Inv.receive (hd : d.Inv) (hw : d.waiters[i]? = some w)
    {rec : ExecutionRecord} (hc : d.channels i = some rec) :
    ({ d.putWaiter i w (.removing (.record rec)) with
        channels := update d.channels i none } : Lobby).Inv := by
  obtain ⟨h, hh, hfits⟩ := hd.channels i rec hc
  have hhash : h = w.commitmentHash := by
    unfold Lobby.hashOf at hh
    rw [hw] at hh
    exact (Option.some.inj hh).symm
  refine hd.waiter hw hd.apart hd.entries hd.nodup ?_ (fun _ _ _ => Iff.rfl) (fun _ => rfl)
    (fun k hk => Function.update_of_ne hk _ _) ?_ ?_
  · exact fun h hmem => ⟨hd.entered hw hmem, trivial⟩
  · intro rec' hrec
    rw [Function.update_self] at hrec
    cases hrec
  · refine ⟨?_, ?_, ?_⟩
    · intro hat
      rcases hat with hat | hat <;> cases hat
    · intro hat
      cases hat
    · intro rec' hrec
      cases hrec
      rw [hhash] at hfits
      exact hfits

/-- A waiter removes its channel and returns. -/
theorem Lobby.Inv.remove (hd : d.Inv) (hw : d.waiters[i]? = some w) {r : WaitEnd}
    (ha : w.stands = .removing r) :
    ({ d.putWaiter i w (.returned r) with
        slices := removeExecutedWaiter w.commitmentHash i d.slices } : Lobby).Inv := by
  refine hd.waiter hw (apart_remove hd.apart) ?_ ?_ ?_ ?_ ?_ (fun _ _ => rfl)
    (fun _ => id) ?_
  · exact fun h => entries_remove hd.entries hd.apart h
  · intro h
    by_cases hh : h = w.commitmentHash
    · rw [hh, view_remove_self hd.apart]
      exact (hd.nodup _).erase i
    · rw [view_remove_of_ne hd.apart (entry_ne hh)]
      exact hd.nodup h
  · intro h hmem
    by_cases hh : h = w.commitmentHash
    · rw [hh, view_remove_self hd.apart] at hmem
      exact absurd hmem (hd.nodup _).not_mem_erase
    · rw [view_remove_of_ne hd.apart (entry_ne hh)] at hmem
      exact absurd (hd.entered hw hmem) hh
  · intro h k hki
    by_cases hh : h = w.commitmentHash
    · rw [hh, view_remove_self hd.apart]
      exact List.mem_erase_of_ne hki
    · rw [view_remove_of_ne hd.apart (entry_ne hh)]
  · intro j
    apply view_remove_of_ne hd.apart
    intro heq
    cases heq
  · have hold := (hd.waiters i w hw).result
    refine ⟨?_, ?_, ?_⟩
    · intro hat
      rcases hat with hat | hat <;> cases hat
    · intro hat
      cases hat
    · intro rec hrec
      apply hold rec
      rw [ha]
      cases r with
      | record rec' => exact hrec
      | _ => cases hrec

/-- A record that a read finds executed is one for the hash. -/
theorem fits_of_read {fault : Fault} {t : ExecutionTable} {rec : ExecutionRecord}
    (h' : afterRead (ExecutionRepo.findByHash fault h t) = some (.record rec)) :
    rec.Fits h := by
  cases hread : ExecutionRepo.findByHash fault h t with
  | error m =>
      rw [hread] at h'
      cases h'
  | ok found =>
      rw [hread] at h'
      cases found with
      | none => cases h'
      | some found =>
          obtain ⟨-, hfind⟩ := query_eq_ok.1 hread
          by_cases hex : found.status = .executed
          · dsimp only [afterRead] at h'
            rw [if_pos hex] at h'
            cases h'
            exact ⟨Table.key_of_find hfind.symm, hex⟩
          · dsimp only [afterRead] at h'
            rw [if_neg hex] at h'
            cases h'

/-- A read that finds none has seen the hash before it was executed. -/
theorem not_executed_of_read {fault : Fault} {t : ExecutionTable}
    (h' : afterRead (ExecutionRepo.findByHash fault h t) = none) : ¬IsExecuted h t := by
  intro hex
  obtain ⟨rec, hfind, hstatus⟩ := hex
  cases hread : ExecutionRepo.findByHash fault h t with
  | error m =>
      rw [hread] at h'
      cases h'
  | ok found =>
      obtain ⟨-, rfl⟩ := query_eq_ok.1 hread
      rw [hread, hfind] at h'
      dsimp only [afterRead] at h'
      rw [if_pos hstatus] at h'
      cases h'

/-- The invariant after any move of a waiter, by where it stands. -/
theorem Lobby.Inv.moveWaiter {d' : Lobby} {fault : Fault} {spare : ℕ} {pick : Pick}
    (hd : d.Inv) (hw : d.waiters[i]? = some w)
    (hm : d.moveWaiter i w fault spare pick = some d') : d'.Inv := by
  have hold := hd.waiters i w hw
  unfold Lobby.moveWaiter at hm
  cases ha : w.stands with
  | reading =>
      rw [ha] at hm
      dsimp only at hm
      cases hread : afterRead (ExecutionRepo.findByHash fault w.commitmentHash d.executions) with
      | some r =>
          rw [hread] at hm
          cases hm
          refine hd.retire hw (fun hat => ?_) (by simp) ?_
          · rw [ha] at hat
            exact hat.elim
          · intro rec hrec
            cases r with
            | record rec' =>
                cases hrec
                exact fits_of_read hread
            | _ => cases hrec
      | none =>
          rw [hread] at hm
          cases hm
          refine hd.retire hw (fun hat => ?_) (by simp) ?_
          · rw [ha] at hat
            exact hat.elim
          · intro rec hrec
            cases hrec
  | attaching =>
      rw [ha] at hm
      cases hm
      exact hd.attach hw ha spare
  | rereading =>
      rw [ha] at hm
      dsimp only at hm
      cases hread : afterRead (ExecutionRepo.findByHash fault w.commitmentHash d.executions) with
      | some r =>
          rw [hread] at hm
          cases hm
          refine hd.retire hw (fun _ => True.intro) (by simp) ?_
          intro rec hrec
          cases r with
          | record rec' =>
              cases hrec
              exact fits_of_read hread
          | _ => cases hrec
      | none =>
          rw [hread] at hm
          cases hm
          refine hd.putWaiter hw (fun _ => True.intro)
            ⟨fun _ => hold.reached (Or.inl ha), ?_, ?_⟩
          · -- an execution past the mutex would have been read
            intro _ _ j e he hh hpast
            have hex := (hd.events j e he).written hpast.written
            rw [hh] at hex
            exact not_executed_of_read hread hex
          · intro rec hrec
            cases hrec
  | waiting =>
      rw [ha] at hm
      cases pick with
      | channel =>
          obtain ⟨rec, hc, rfl⟩ := Option.map_eq_some_iff.1 hm
          exact hd.receive hw hc
      | timer =>
          cases hm
          refine hd.retire hw (fun _ => True.intro) (by simp) ?_
          intro rec hrec
          cases hrec
      | done =>
          cases hm
          refine hd.retire hw (fun _ => True.intro) (by simp) ?_
          intro rec hrec
          cases hrec
  | removing r =>
      rw [ha] at hm
      cases hm
      exact hd.remove hw ha
  | returned r =>
      rw [ha] at hm
      cases hm

end Waiters

-- ================================================================ the tables

section Tables

variable {t t' : ExecutionTable} {fault : Fault} {rec : ExecutionRecord}

/-- What is executed stays so, and nothing that is not is added. -/
structure Advances (t t' : ExecutionTable) : Prop where
  executed : ∀ h, IsExecuted h t → IsExecuted h t'
  only : ∀ h, OnlyExecuted h t → OnlyExecuted h t'

/-- A table that stays has lost nothing. -/
theorem Advances.refl (t : ExecutionTable) : Advances t t :=
  ⟨fun _ => id, fun _ => id⟩

/-- After the update the record of the hash, if there is one, is
executed. -/
theorem only_of_update {tx : String} {b g : UInt64} {x : Option ℤ}
    (hu : ExecutionRepo.updateStatus fault h .executed tx b g x t = .ok t') :
    OnlyExecuted h t' := by
  intro rec hrec
  rw [ExecutionRepo.updateStatus_find hu, if_pos rfl] at hrec
  obtain ⟨old, -, rfl⟩ := Option.map_eq_some_iff.1 hrec
  rfl

/-- The update to executed makes no record less so. -/
theorem Advances.of_update {tx : String} {b g : UInt64} {x : Option ℤ}
    (hu : ExecutionRepo.updateStatus fault h .executed tx b g x t = .ok t') :
    Advances t t' := by
  refine ⟨?_, ?_⟩
  · intro k hk
    obtain ⟨rec, hfind, hstatus⟩ := hk
    by_cases hkh : k = h
    · rw [hkh] at hfind ⊢
      refine ⟨ExecutionRepo.setStatus .executed tx b g x rec, ?_, rfl⟩
      rw [ExecutionRepo.updateStatus_find hu, if_pos rfl, hfind]
      rfl
    · refine ⟨rec, ?_, hstatus⟩
      rw [ExecutionRepo.updateStatus_find hu, if_neg hkh]
      exact hfind
  · intro k hk
    by_cases hkh : k = h
    · rw [hkh]
      exact only_of_update hu
    · intro rec hrec
      rw [ExecutionRepo.updateStatus_find hu, if_neg hkh] at hrec
      exact hk rec hrec

/-- A record that is saved as executed is found executed. -/
theorem executed_of_save (hu : ExecutionRepo.save fault rec t = .ok t')
    (hfits : rec.Fits h) : IsExecuted h t' := by
  obtain ⟨-, hinsert⟩ := ExecutionRepo.save_eq_ok.1 hu
  refine ⟨rec, ?_, hfits.2⟩
  rw [Table.find_insert hinsert, if_pos hfits.1]

/-- Saving it changes no other record. -/
theorem Advances.of_save (hu : ExecutionRepo.save fault rec t = .ok t')
    (hfits : rec.Fits h) : Advances t t' := by
  obtain ⟨-, hinsert⟩ := ExecutionRepo.save_eq_ok.1 hu
  refine ⟨?_, ?_⟩
  · intro k hk
    by_cases hkh : rec.commitmentHash = k
    · rw [← hkh, hfits.1]
      exact executed_of_save hu hfits
    · obtain ⟨old, hfind, hstatus⟩ := hk
      refine ⟨old, ?_, hstatus⟩
      rw [Table.find_insert hinsert, if_neg hkh]
      exact hfind
  · intro k hk old hold
    rw [Table.find_insert hinsert] at hold
    by_cases hkh : rec.commitmentHash = k
    · rw [if_pos hkh] at hold
      cases hold
      exact hfits.2
    · rw [if_neg hkh] at hold
      exact hk old hold

end Tables

-- ============================================================= one event moves

section Events

variable {d' : Lobby} {a : ExecuteAt}

/-- What an event's step keeps: `d'` is the lobby after it, in which the
event stands at `a`. -/
theorem Lobby.Inv.event (hd : d.Inv) (he : d.events[j]? = some e)
    (hevents : d'.events = d.events.set j { e with stands := a })
    (hwaiters : d'.waiters = d.waiters) (htable : Advances d.executions d'.executions)
    (hs : d'.slices.Apart)
    (hentries : ∀ h, d'.slices.var (.entry h) ≠ none → d'.slices.view (.entry h) ≠ [])
    (hnodup : ∀ h, (d'.slices.view (.entry h)).Nodup)
    (hfewer : ∀ h i, i ∈ d'.slices.view (.entry h) → i ∈ d.slices.view (.entry h))
    (htaken : ∀ k, k ≠ j → d'.slices.view (.taken k) = d.slices.view (.taken k))
    (hsent : ∀ i rec, d'.channels i = some rec → ∃ h, d.hashOf i = some h ∧ rec.Fits h)
    (hkept : ∀ i, d.channels i ≠ none → d'.channels i ≠ none)
    (hentry : ∀ h i, i ∈ d.slices.view (.entry h) → d'.Reached i h)
    (hflight : ∀ rec n i, e.stands = .sending rec n → i ∈ (d.slices.view (.taken j)).drop n →
      d'.Reached i e.commitmentHash)
    (hpast : a.Past → e.stands.Past ∨ d'.slices.view (.entry e.commitmentHash) = [])
    (hok : ({ e with stands := a } : Executed).Ok d' j) : d'.Inv := by
  have hself : d'.events[j]? = some { e with stands := a } := by
    rw [hevents]
    exact List.getElem?_set_self (List.getElem?_eq_some_iff.1 he).1
  have hother : ∀ {k : ℕ}, k ≠ j → d'.events[k]? = d.events[k]? := by
    intro k hk
    rw [hevents]
    exact List.getElem?_set_ne hk.symm
  have hhash : ∀ i, d'.hashOf i = d.hashOf i := by
    intro i
    unfold Lobby.hashOf
    rw [hwaiters]
  refine ⟨hs, hentries, hnodup, ?_, ?_, ?_, ?_⟩
  · intro h i hi
    rw [hwaiters]
    exact hd.attached h i (hfewer h i hi)
  · intro i rec hi
    rw [hhash]
    exact hsent i rec hi
  · intro i w hw
    rw [hwaiters] at hw
    have hold := hd.waiters i w hw
    refine ⟨fun hat => ?_, fun hat hi => ?_, hold.result⟩
    · rcases hold.reached hat with hmem | ⟨k, f, rec, n, hf, hh, hsend, hmem⟩ | hne
      · exact hentry _ i hmem
      · by_cases hk : k = j
        · rw [hk] at hf hmem
          rw [he] at hf
          cases hf
          rw [← hh]
          exact hflight rec n i hsend hmem
        · refine Or.inr (Or.inl ⟨k, f, rec, n, (hother hk).trans hf, hh, hsend, ?_⟩)
          rw [htaken k hk]
          exact hmem
      · exact Or.inr (Or.inr (hkept i hne))
    · have hquiet := hold.quiet hat (hfewer _ i hi)
      intro k f hf hh hfpast
      by_cases hk : k = j
      · rw [hk, hself] at hf
        cases hf
        rcases hpast hfpast with hbefore | hnil
        · exact hquiet j e he hh hbefore
        · rw [← hh, hnil] at hi
          exact List.not_mem_nil hi
      · exact hquiet k f ((hother hk).symm.trans hf) hh hfpast
  · intro k f hf
    by_cases hk : k = j
    · rw [hk, hself] at hf
      cases hf
      rw [hk]
      exact hok
    · have hold := hd.events k f ((hother hk).symm.trans hf)
      refine ⟨fun kind hat => htable.only _ (hold.reads kind hat), hold.carries,
        fun hat => htable.executed _ (hold.written hat), ?_⟩
      intro rec n hat i hi
      rw [hhash]
      apply hold.rest rec n hat i
      rw [← htaken k hk]
      exact hi

/-- A step that leaves the slices and the channels alone. -/
theorem Lobby.Inv.putEvent {t : ExecutionTable} (hd : d.Inv) (he : d.events[j]? = some e)
    (htable : Advances d.executions t)
    (hlast : ∀ rec n, e.stands = .sending rec n → (d.slices.view (.taken j)).drop n = [])
    (hpast : a.Past → e.stands.Past)
    (hok : ({ e with stands := a } : Executed).Ok
      { d.putEvent j e a with executions := t } j) :
    ({ d.putEvent j e a with executions := t } : Lobby).Inv := by
  refine hd.event he rfl rfl htable hd.apart hd.entries hd.nodup (fun _ _ => id)
    (fun _ _ => rfl) hd.channels (fun _ => id) (fun _ _ => Or.inl) ?_
    (fun hp => Or.inl (hpast hp)) hok
  intro rec n i hat hi
  rw [hlast rec n hat] at hi
  exact absurd hi List.not_mem_nil

/-- The notifier takes the entry out of the map. -/
theorem Lobby.Inv.take {rec : ExecutionRecord} (hd : d.Inv) (he : d.events[j]? = some e)
    (ha : e.stands = .taking rec) :
    ({ d.putEvent j e (.sending rec 0) with
        slices := d.slices.move (.entry rec.commitmentHash) (.taken j) } : Lobby).Inv := by
  have hold := hd.events j e he
  have hfits : rec.Fits e.commitmentHash := by
    apply hold.carries
    rw [ha]
    rfl
  have hne : ∀ h, Place.entry h ≠ Place.taken j := fun h heq => by cases heq
  have hself : (d.putEvent j e (.sending rec 0)).events[j]?
      = some { e with stands := .sending rec 0 } :=
    List.getElem?_set_self (List.getElem?_eq_some_iff.1 he).1
  rw [hfits.1]
  refine hd.event he rfl rfl (Advances.refl _) (hd.apart.move (hne _)) ?_ ?_ ?_ ?_ hd.channels
    (fun _ => id) ?_ ?_ (fun _ => Or.inr Slices.view_move_src) ?_
  · intro h hvar
    by_cases hh : h = e.commitmentHash
    · rw [hh] at hvar
      exact absurd Slices.var_move_src hvar
    · dsimp only at hvar ⊢
      rw [Slices.var_move_of_ne (entry_ne hh) (hne h)] at hvar
      rw [Slices.view_move_of_ne (entry_ne hh) (hne h)]
      exact hd.entries h hvar
  · intro h
    by_cases hh : h = e.commitmentHash
    · rw [hh, Slices.view_move_src]
      exact List.nodup_nil
    · rw [Slices.view_move_of_ne (entry_ne hh) (hne h)]
      exact hd.nodup h
  · intro h i hi
    by_cases hh : h = e.commitmentHash
    · rw [hh, Slices.view_move_src] at hi
      exact absurd hi List.not_mem_nil
    · rwa [Slices.view_move_of_ne (entry_ne hh) (hne h)] at hi
  · intro k hk
    apply Slices.view_move_of_ne
    · intro heq
      cases heq
    · exact fun heq => hk (Place.taken.inj heq)
  · intro h i hi
    by_cases hh : h = e.commitmentHash
    · refine Or.inr (Or.inl ⟨j, _, rec, 0, hself, hh.symm, rfl, ?_⟩)
      rw [List.drop_zero, Slices.view_move_dst (hne _), ← hh]
      exact hi
    · refine Or.inl ?_
      rw [Slices.view_move_of_ne (entry_ne hh) (hne h)]
      exact hi
  · intro rec' n i hat
    rw [ha] at hat
    cases hat
  · refine ⟨?_, ?_, ?_, ?_⟩
    · intro kind hat
      cases hat
    · intro rec' hrec
      cases hrec
      exact hfits
    · intro _
      apply hold.written
      rw [ha]
      trivial
    · intro rec' n hat i hi
      cases hat
      rw [List.drop_zero, Slices.view_move_dst (hne _)] at hi
      obtain ⟨w, hw, hh, -⟩ := hd.attached _ i hi
      show (d.waiters[i]?).map Waiter.commitmentHash = some e.commitmentHash
      rw [hw, ← hh]
      rfl

/-- A send leaves its channel full, and no channel emptier. -/
theorem trySend_ne_none {ch i : ℕ} {rec : ExecutionRecord} {c : ℕ → Option ExecutionRecord}
    (hi : i = ch ∨ c i ≠ none) : trySend ch rec c i ≠ none := by
  unfold trySend
  by_cases hroom : c ch = none
  · rw [if_pos hroom]
    by_cases heq : i = ch
    · rw [heq, Function.update_self]
      exact Option.some_ne_none rec
    · rw [Function.update_of_ne heq]
      exact hi.resolve_left heq
  · rw [if_neg hroom]
    rcases hi with rfl | hi
    · exact hroom
    · exact hi

/-- What is in a channel after a send was there before, or is what was
sent. -/
theorem eq_of_trySend {ch i : ℕ} {rec rec' : ExecutionRecord} {c : ℕ → Option ExecutionRecord}
    (h : trySend ch rec c i = some rec') : c i = some rec' ∨ (i = ch ∧ rec' = rec) := by
  unfold trySend at h
  split at h
  · by_cases heq : i = ch
    · rw [heq, Function.update_self] at h
      cases h
      exact Or.inr ⟨heq, rfl⟩
    · rw [Function.update_of_ne heq] at h
      exact Or.inl h
  · exact Or.inl h

/-- The notifier sends to the next channel of its slice. -/
theorem Lobby.Inv.send {rec : ExecutionRecord} {ch n : ℕ} (hd : d.Inv)
    (he : d.events[j]? = some e) (ha : e.stands = .sending rec n)
    (hch : (d.slices.view (.taken j))[n]? = some ch) :
    ({ d.putEvent j e (.sending rec (n + 1)) with
        channels := trySend ch rec d.channels } : Lobby).Inv := by
  have hold := hd.events j e he
  have hfits : rec.Fits e.commitmentHash := by
    apply hold.carries
    rw [ha]
    rfl
  have hdrop : (d.slices.view (.taken j)).drop n
      = ch :: (d.slices.view (.taken j)).drop (n + 1) := by
    obtain ⟨hlt, hget⟩ := List.getElem?_eq_some_iff.1 hch
    rw [List.drop_eq_getElem_cons hlt, hget]
  have hself : (d.putEvent j e (.sending rec (n + 1))).events[j]?
      = some { e with stands := .sending rec (n + 1) } :=
    List.getElem?_set_self (List.getElem?_eq_some_iff.1 he).1
  have hhash : d.hashOf ch = some e.commitmentHash := by
    apply hold.rest rec n ha ch
    rw [hdrop]
    exact List.mem_cons_self
  refine hd.event he rfl rfl (Advances.refl _) hd.apart hd.entries hd.nodup (fun _ _ => id)
    (fun _ _ => rfl) ?_ (fun _ hi => trySend_ne_none (Or.inr hi)) (fun _ _ => Or.inl) ?_ ?_ ?_
  · intro i rec' hi
    rcases eq_of_trySend hi with hi | ⟨rfl, rfl⟩
    · exact hd.channels i rec' hi
    · exact ⟨e.commitmentHash, hhash, hfits⟩
  · intro rec' n' i hat hi
    rw [ha] at hat
    cases hat
    rw [hdrop] at hi
    rcases List.mem_cons.1 hi with heq | hi
    · exact Or.inr (Or.inr (trySend_ne_none (Or.inl heq)))
    · exact Or.inr (Or.inl ⟨j, _, rec, n + 1, hself, rfl, rfl, hi⟩)
  · intro _
    rw [ha]
    exact Or.inl trivial
  · refine ⟨?_, ?_, ?_, ?_⟩
    · intro kind hat
      cases hat
    · intro rec' hrec
      cases hrec
      exact hfits
    · intro _
      apply hold.written
      rw [ha]
      trivial
    · intro rec' n' hat i hi
      cases hat
      apply hold.rest rec n ha i
      rw [hdrop]
      exact List.mem_cons_of_mem _ hi

/-- A step of an event that is not past the mutex, and does not pass it. -/
theorem Lobby.Inv.early {t : ExecutionTable} {b : ExecuteAt} (hd : d.Inv)
    (he : d.events[j]? = some e) (htable : Advances d.executions t) (hb : e.stands = b)
    (hbefore : ¬b.Past) (hafter : ¬a.Past)
    (hok : ({ e with stands := a } : Executed).Ok
      { d.putEvent j e a with executions := t } j) :
    ({ d.putEvent j e a with executions := t } : Lobby).Inv := by
  refine hd.putEvent he htable (fun rec n hat => ?_) (fun hp => absurd hp hafter) hok
  apply absurd _ hbefore
  rw [← hb, hat]
  trivial

/-- An event that has read nothing back and has nothing to save or to send. -/
theorem Executed.Ok.of_bare (hreads : ∀ kind, a ≠ .readingBack kind)
    (hcarries : a.carries = none) (hwritten : ¬a.Written) :
    ({ e with stands := a } : Executed).Ok d j := by
  refine ⟨fun kind hat => absurd hat (hreads kind), ?_, fun hat => absurd hat hwritten, ?_⟩
  · intro rec hrec
    rw [hcarries] at hrec
    cases hrec
  · intro rec n hat
    dsimp only at hat
    rw [hat] at hcarries
    cases hcarries

/-- An event that has read its record back is still before the mutex. -/
theorem not_past_of_readBack {kind : StrategyKind}
    {found : Except String (Option ExecutionRecord)} :
    ¬(e.afterReadBack kind found).Past := by
  intro hpast
  rcases found with m | _ | rec <;> exact hpast

/-- What it hands on from there fits its hash. -/
theorem Executed.Ok.of_readBack {kind : StrategyKind} {fault : Fault}
    {found : Except String (Option ExecutionRecord)}
    (honly : OnlyExecuted e.commitmentHash d.executions)
    (hread : ExecutionRepo.findByHash fault e.commitmentHash d.executions = found) :
    ({ e with stands := e.afterReadBack kind found } : Executed).Ok d j := by
  cases found with
  | error m => exact .of_bare (fun _ hat => by cases hat) rfl id
  | ok found =>
      obtain ⟨-, hfound⟩ := query_eq_ok.1 hread
      cases found with
      | some rec =>
          have hexecuted := honly rec hfound.symm
          refine ⟨?_, ?_, fun _ => ⟨rec, hfound.symm, hexecuted⟩, ?_⟩
          · intro _ hat
            cases hat
          · intro rec' hrec
            cases hrec
            exact ⟨Table.key_of_find hfound.symm, hexecuted⟩
          · intro _ _ hat
            cases hat
      | none =>
          refine ⟨?_, ?_, False.elim, ?_⟩
          · intro _ hat
            cases hat
          · intro rec' hrec
            cases hrec
            exact ⟨rfl, rfl⟩
          · intro _ _ hat
            cases hat

/-- The invariant after any move of an event, by where it stands. -/
theorem Lobby.Inv.moveEvent {svc : IndexerService} {fault : Fault} (hd : d.Inv)
    (he : d.events[j]? = some e) (hm : d.moveEvent svc j e fault = some d') : d'.Inv := by
  have hold := hd.events j e he
  have hrefl := Advances.refl d.executions
  unfold Lobby.moveEvent at hm
  cases ha : e.stands with
  | labelling =>
      rw [ha] at hm
      dsimp only at hm
      split at hm
      · cases hm
        exact hd.early he hrefl ha id id (.of_bare (fun _ hat => by cases hat) rfl id)
      · cases hm
        split
        · exact hd.early he hrefl ha id id (.of_bare (fun _ hat => by cases hat) rfl id)
        · exact hd.early he hrefl ha id id (.of_bare (fun _ hat => by cases hat) rfl id)
  | lookingUp =>
      rw [ha] at hm
      dsimp only at hm
      split at hm
      · cases hm
        exact hd.early he hrefl ha id id (.of_bare (fun _ hat => by cases hat) rfl id)
      · cases hm
        exact hd.early he hrefl ha id id (.of_bare (fun _ hat => by cases hat) rfl id)
  | updating kind =>
      rw [ha] at hm
      dsimp only at hm
      cases hu : ExecutionRepo.updateStatus fault e.commitmentHash .executed e.txHash
          e.blockNumber e.gasUsed (some e.blockTime) d.executions with
      | ok t =>
          rw [hu] at hm
          cases hm
          refine hd.early he (Advances.of_update hu) ha id id
            ⟨fun _ _ => only_of_update hu, ?_, False.elim, ?_⟩
          · intro _ hat
            cases hat
          · intro _ _ hat
            cases hat
      | error m =>
          rw [hu] at hm
          cases hm
          exact hd.early he hrefl ha id id (.of_bare (fun _ hat => by cases hat) rfl id)
  | readingBack kind =>
      rw [ha] at hm
      cases hm
      exact hd.early he hrefl ha id not_past_of_readBack (.of_readBack (hold.reads kind ha) rfl)
  | saving rec =>
      have hfits : rec.Fits e.commitmentHash := by
        apply hold.carries
        rw [ha]
        rfl
      rw [ha] at hm
      dsimp only at hm
      cases hu : ExecutionRepo.save fault rec d.executions with
      | ok t =>
          rw [hu] at hm
          cases hm
          refine hd.early he (Advances.of_save hu hfits) ha id id
            ⟨?_, ?_, fun _ => executed_of_save hu hfits, ?_⟩
          · intro _ hat
            cases hat
          · intro rec' hrec
            cases hrec
            exact hfits
          · intro _ _ hat
            cases hat
      | error m =>
          rw [hu] at hm
          cases hm
          exact hd.early he hrefl ha id id (.of_bare (fun _ hat => by cases hat) rfl id)
  | taking rec =>
      rw [ha] at hm
      cases hm
      exact hd.take he ha
  | sending rec n =>
      rw [ha] at hm
      dsimp only at hm
      cases hch : (d.slices.view (.taken j))[n]? with
      | some ch =>
          rw [hch] at hm
          cases hm
          exact hd.send he ha hch
      | none =>
          rw [hch] at hm
          cases hm
          refine hd.putEvent he hrefl ?_ ?_ ⟨?_, ?_, ?_, ?_⟩
          · intro rec' n' hat
            rw [ha] at hat
            cases hat
            exact List.drop_eq_nil_of_le (List.getElem?_eq_none_iff.1 hch)
          · intro _
            rw [ha]
            trivial
          · intro _ hat
            cases hat
          · intro _ hat
            cases hat
          · intro _
            apply hold.written
            rw [ha]
            trivial
          · intro _ _ hat
            cases hat
  | finished =>
      rw [ha] at hm
      cases hm
  | failed m =>
      rw [ha] at hm
      cases hm

end Events

/-- Every step keeps the invariant. -/
theorem Lobby.Inv.step {svc : IndexerService} {d' : Lobby} (hd : d.Inv) (l : LobbyStep)
    (hs : d.step svc l = some d') : d'.Inv := by
  cases l with
  | wait i fault spare pick =>
      obtain ⟨w, hw, hm⟩ := Option.bind_eq_some_iff.1 hs
      exact hd.moveWaiter hw hm
  | event j fault =>
      obtain ⟨e, he, hm⟩ := Option.bind_eq_some_iff.1 hs
      exact hd.moveEvent he hm

end Zstrategy.Backend
