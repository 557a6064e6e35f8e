/-
What a receipt stands for. A call that returned was entered in some state
of the run, at the block time of the receipt, and could return from there.
Between two transactions the clock may tick, inside one it does not; so
the argument goes stretch by stretch.

A receipt has no memory of the state its call was entered in.
`Receipt.Justified` supplies one, from among those the run went through.
-/
import Zstrategy.Contracts.Apart

namespace Zstrategy.Contracts

open Lib Code

variable {net : Net} {P : World → ChainMove → Prop}

/-- The clock and the calls that returned. -/
def World.history (w : World) : ℕ × List Receipt := (w.timestamp, w.receipts)

instance aside_history : Aside World.history where
  vault _ _ _ := rfl
  registry _ _ _ := rfl
  token _ _ _ _ _ := rfl
  log _ _ := rfl
  approved _ _ := rfl
  anyRegistry _ _ := rfl
  gasVault _ _ := rfl
  eth _ _ _ _ := rfl

/-- The call was entered at a state of the run, at the time of the receipt,
and can return from there. -/
def Receipt.Justified (net : Net) (P : World → ChainMove → Prop) (r : Receipt) : Prop :=
  ∃ w m, P w (.enter (m, r.call)) ∧ m.sender = r.sender ∧ w.timestamp = r.timestamp
    ∧ (entry net (m, r.call) w).CanReturn

/-- The receipts since the start are justified. -/
def World.Honest (net : Net) (P : World → ChainMove → Prop) (old : List Receipt)
    (w : World) : Prop :=
  ∀ r ∈ w.receipts, r ∈ old ∨ r.Justified net P

theorem history_outside {e : Outside} {w w' : World} (hidle : e.idle = false)
    (he : e.effect net w = some w') : w'.history = w.history := by
  cases e with
  | externals x => cases he; rfl
  | tick x => cases hidle
  | transfer | mint | payEth =>
      simp only [Outside.effect] at he
      split at he
      · cases he; rfl
      · cases he

theorem receipts_outside {e : Outside} {w w' : World} (he : e.effect net w = some w') :
    w'.receipts = w.receipts := by
  cases hidle : e.idle with
  | false => exact congrArg Prod.snd (history_outside hidle he)
  | true =>
      cases e with
      | tick x => cases he; rfl
      | _ => cases hidle

theorem honest_sound (net : Net) (P : World → ChainMove → Prop) (old : List Receipt) :
    (chain net).busy.Sound P (World.Honest net P old)
      fun w w' => w'.timestamp = w.timestamp where
  refl _ := rfl
  trans _ _ _ h h' := h'.trans h
  entry := by
    intro i w _ hP hw
    obtain ⟨m, call⟩ := i
    let Γ := (chain net).busy.rely (World.Honest net P old) fun w w' => w'.timestamp = w.timestamp
    have hframes : (dispatch net m call w).Frames World.history w.history :=
      (frames_dispatch m call).frames w
    have hbody : (dispatch net m call).wp Γ
        (fun _ w' => w'.Honest net P old ∧ w'.timestamp = w.timestamp) w := by
      have hsat := hframes.sat (I := fun x => ∀ r ∈ x.2, r ∈ old ∨ r.Justified net P)
        (R := fun x y => y.1 = x.1) (fun _ _ _ h h' => h'.trans h) rfl hw
      exact hsat.weaken (fun _ => id) (fun _ _ _ hi hr => ⟨hi, hr⟩) (fun _ _ _ => trivial)
        fun _ => id
    have hentry : (entry net (m, call)).wp Γ (fun _ w' => ∃ u : World,
        u.Honest net P old ∧ u.timestamp = w.timestamp
          ∧ w' = { u with receipts := u.receipts ++ [⟨u.timestamp, m.sender, call⟩] }) w := by
      unfold entry
      rw [wp_bind]
      exact wp_mono hbody fun _ u hu => ⟨u, hu.1, hu.2, rfl⟩
    refine (Outcome.Sat.canReturn hentry).mono fun _ w' hw' => ?_
    obtain ⟨⟨u, hu, htime, rfl⟩, hret⟩ := hw'
    refine ⟨fun r hr => ?_, htime⟩
    rcases List.mem_append.1 hr with hr | hr
    · exact hu r hr
    · rw [List.mem_singleton.1 hr]
      exact Or.inr ⟨w, m, hP, rfl, htime.symm, hret⟩
  outside := by
    intro e w w' _ hw he
    simp only [System.busy] at he
    split at he
    · cases he
    · rename_i hbusy
      have hsame := history_outside (Bool.eq_false_of_not_eq_true hbusy) he
      refine ⟨?_, congrArg Prod.fst hsame⟩
      have hreceipts : w'.receipts = w.receipts := congrArg Prod.snd hsame
      unfold World.Honest
      rw [hreceipts]
      exact hw

/-- Every receipt since the start is justified by a state of the run. -/
theorem receipts_justified {w : World} {c : ChainConfig}
    (hrun : (chain net).Run P ⟨w, []⟩ c) {r : Receipt} (hr : r ∈ c.world.receipts) :
    r ∈ w.receipts ∨ r.Justified net P := by
  refine hrun.inv_of_busy (honest_sound net P w.receipts) ?_ (fun _ hr => Or.inl hr) r hr
  intro e w w' _ hw he
  unfold World.Honest
  rw [receipts_outside he]
  exact hw

end Zstrategy.Contracts
