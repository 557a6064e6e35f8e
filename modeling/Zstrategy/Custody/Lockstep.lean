/-
Registry status and vault lock in lockstep. While the registry and a vault
point to each other, the vault's lock under a hash is what the hash's
record says is due: its size while pending, in its own token, and nothing
otherwise.

The invariant is `Lockstep`, kept by every act that leaves the wiring
alone (`Lockstep.act`). Settlements are counted on the way: a hash has
settled nothing until it is terminal, and its size from then on
(`settled_path`).
-/
import Zstrategy.Custody.Refinement

namespace Zstrategy.Contracts

open Lib Code

open Function (update)

variable {net : Net} {v : Address} {b : Book} {a : Act}

-- ================================================================== wiring

/-- The registry and the vault at `v` point to each other. -/
structure Book.Wired (net : Net) (v : Address) (b : Book) : Prop where
  isVault : net.isVault v = true
  vault : b.vault = v
  registry : b.registryOf v = net.registry

/-- Acts that point neither of the two elsewhere. -/
def Act.KeepsWiring (net : Net) (v : Address) : Act → Prop
  | .setVault x => x = v
  | .setVaultRegistry x r => x = v → r = net.registry
  | _ => True

/-- Runs that do not re-point the two make only such acts. -/
theorem KeepsWiring.allows (net : Net) (v : Address) :
    Allows (Act.KeepsWiring net v) (KeepsWiring net v) := by
  intro w mv hmv act hact
  cases mv with
  | enter i =>
      obtain ⟨m, call⟩ := i
      cases call with
      | registerCommitmentBatch =>
          obtain ⟨row, -, rfl⟩ := hact
          trivial
      | sweepExpired =>
          obtain ⟨h, -, r, rfl⟩ := hact
          trivial
      | setVaultRegistry | setCollateralVault =>
          cases hact
          exact hmv
      | _ => cases hact <;> trivial
  | outside e => cases e <;> cases hact <;> trivial
  | _ => cases hact

theorem Book.Wired.act (hw : b.Wired net v) (hok : a.KeepsWiring net v) :
    (a.effect net b).Wired net v := by
  refine ⟨hw.isVault, ?_, ?_⟩
  · rw [Act.effect_vault]
    cases a with
    | setVault x => exact hok
    | _ => exact hw.vault
  · rw [Act.effect_registryOf]
    cases a with
    | setVaultRegistry x r =>
        show update b.registryOf x r v = net.registry
        by_cases hx : v = x
        · subst hx
          rw [Function.update_self]
          exact hok rfl
        · rw [Function.update_of_ne hx]
          exact hw.registry
    | _ => exact hw.registry

/-- A vault that obeys our registry takes no foreign one's calls. -/
theorem Book.Wired.not_foreign (hw : b.Wired net v) {x : Address}
    (hf : b.Foreign net x) : v ≠ x := by
  rintro rfl
  exact hf.2 hw.registry

-- =================================================================== locks

/-- What the vault keeps locked for a record. -/
def CommitmentRecord.due (r : CommitmentRecord) (t : Address) : ℕ :=
  if r.status = .PENDING ∧ t = r.tokenIn then r.size.val else 0

/-- Where an act leaves the lock of the record it writes. -/
def CommitmentRecord.relock (r : CommitmentRecord) (x : ℕ) : ℕ :=
  if r.status = .PENDING then x + r.size.val else x - r.size.val

theorem Act.effect_locked (hw : b.Wired net v) (hg : a.guard net b) :
    (a.effect net b).locked v
      = match a.writes with
        | some (h, r) =>
            update2 (b.locked v) h r.tokenIn (r.relock (b.locked v h r.tokenIn))
        | none => b.locked v := by
  have hpay : ∀ (b : Book) t src dst x, (b.pay net t src dst x).locked = b.locked :=
    fun b t src dst x => Book.pay_field Book.locked (fun _ _ => rfl) t src dst x
  have hclose : ∀ (r : CommitmentRecord) (st : CommitmentStatus) x, st ≠ .PENDING →
      (r.close st).relock x = x - r.size.val := fun r st x h => if_neg h
  cases a with
  | deposit x u t y => exact congrFun (hpay _ _ _ _ _) v
  | withdraw x u t y => exact congrFun (hpay _ _ _ _ _) v
  | transfer t src dst y => exact congrFun (hpay _ _ _ _ _) v
  | lock x h u t y =>
      exact Function.update_of_ne (hw.not_foreign hg.1) _ _
  | giveBack x h u t y =>
      exact Function.update_of_ne (hw.not_foreign hg.1) _ _
  | release x h t y dst =>
      rw [Act.effect, Book.release, hpay]
      exact Function.update_of_ne (hw.not_foreign hg.1) _ _
  | register h r =>
      rw [Act.effect, Book.onVault_eq hw.isVault (by exact hw.vault)]
      simp only [Act.writes, CommitmentRecord.relock, if_pos hg.2.1]
      exact Function.update_self _ _ _
  | execute h n r dst =>
      rw [Act.effect, Book.onVault_eq hw.isVault (by exact hw.vault), Book.release, hpay]
      simp only [Act.writes, hclose r .EXECUTED _ (by decide)]
      exact Function.update_self _ _ _
  | cancel h n r =>
      rw [Act.effect, Book.onVault_eq hw.isVault (by exact hw.vault)]
      simp only [Act.writes, hclose r .CANCELLED _ (by decide)]
      exact Function.update_self _ _ _
  | expire h r =>
      rw [Act.effect, Book.onVault_eq hw.isVault (by exact hw.vault)]
      simp only [Act.writes, hclose r .EXPIRED _ (by decide)]
      exact Function.update_self _ _ _
  | _ => rfl

-- ================================================================ lockstep

/-- The vault's lock under each hash is what the hash's record is due. -/
structure Lockstep (net : Net) (v : Address) (b : Book) : Prop where
  wired : b.Wired net v
  locked : ∀ h t, b.locked v h t = (b.record h).due t
  size : ∀ h, (b.record h).status = .PENDING → 0 < (b.record h).size.val

/-- The lock covers the record of a pending hash. -/
theorem Lockstep.covers {h : Bytes32} (hl : Lockstep net v b)
    (hp : (b.record h).status = .PENDING) : b.Covers h (b.record h) v := by
  rw [Book.Covers, hl.locked, CommitmentRecord.due, if_pos ⟨hp, rfl⟩]

theorem CommitmentRecord.due_of_ne {r : CommitmentRecord} (h : r.status ≠ .PENDING)
    (t : Address) : r.due t = 0 :=
  if_neg fun hr => h hr.1

theorem CommitmentStatus.Terminal.ne_pending {st : CommitmentStatus}
    (h : st.Terminal) : st ≠ .PENDING := by
  rintro rfl
  exact h

/-- Opening a fresh record, or closing a pending one, turns what was due
for the old one into what is due for the new one. -/
theorem relock_due {r₀ r : CommitmentRecord}
    (h : (r₀.status = .NONE ∧ r.status = .PENDING ∧ 0 < r.size.val)
      ∨ (r₀.status = .PENDING ∧ ∃ st, st.Terminal ∧ r = r₀.close st))
    (t : Address) :
    update r₀.due r.tokenIn (r.relock (r₀.due r.tokenIn)) t = r.due t := by
  rcases h with ⟨hnone, hpend, -⟩ | ⟨hpend, st, hst, rfl⟩
  · have h₀ : ∀ t, r₀.due t = 0 :=
      CommitmentRecord.due_of_ne (by rw [hnone]; decide)
    by_cases ht : t = r.tokenIn
    · subst ht
      simp [CommitmentRecord.relock, CommitmentRecord.due, hpend, hnone]
    · simp [CommitmentRecord.due, ht, hnone]
  · have hne : st ≠ .PENDING := hst.ne_pending
    by_cases ht : t = r₀.tokenIn
    · subst ht
      simp [CommitmentRecord.relock, CommitmentRecord.due, CommitmentRecord.close, hpend,
        hne]
    · simp [CommitmentRecord.due, CommitmentRecord.close, ht, hne]

theorem Lockstep.act (hl : Lockstep net v b) (hok : a.KeepsWiring net v)
    (hg : a.guard net b) : Lockstep net v (a.effect net b) := by
  refine ⟨hl.wired.act hok, ?_, ?_⟩
  · intro h t
    rw [Act.effect_locked hl.wired hg, Act.effect_record]
    cases hw : a.writes with
    | none => exact hl.locked h t
    | some hr =>
        obtain ⟨h', r⟩ := hr
        by_cases hh : h = h'
        · subst hh
          have hdue : b.locked v h = (b.record h).due := funext (hl.locked h)
          simp only [update2, Function.update_self, hdue]
          exact relock_due (Act.writes_cases hg hw) t
        · simp only [update2, Function.update_of_ne hh]
          exact hl.locked h t
  · intro h hp
    rw [Act.effect_record] at hp ⊢
    cases hw : a.writes with
    | none =>
        rw [hw] at hp
        exact hl.size h hp
    | some hr =>
        obtain ⟨h', r⟩ := hr
        rw [hw] at hp
        by_cases hh : h = h'
        · subst hh
          simp only [Function.update_self] at hp ⊢
          rcases Act.writes_cases hg hw with ⟨-, -, hpos⟩ | ⟨-, st, hst, rfl⟩
          · exact hpos
          · exact absurd hp hst.ne_pending
        · simp only [Function.update_of_ne hh] at hp ⊢
          exact hl.size h hp

-- ============================================================== settlements

/-- What an item settles of `h` at `v`. -/
def Item.settles (v : Address) (h : Bytes32) : Item → ℕ
  | .settled v' h' _ x => if v' = v ∧ h' = h then x else 0
  | _ => 0

/-- What the vault at `v` released or returned for `h`, by its log. -/
def settledTotal (v : Address) (h : Bytes32) (log : List Event) : ℕ :=
  (log.map fun
    | .vault v' (.CollateralReleased h' _ x _) => if v' = v ∧ h' = h then x.val else 0
    | .vault v' (.CollateralReturned h' _ _ x) => if v' = v ∧ h' = h then x.val else 0
    | _ => 0).sum

/-- Closing a record settles its size; nothing else settles anything. -/
theorem Act.settledBy_incurs (hw : b.Wired net v) (hg : a.guard net b) (h : Bytes32) :
    tally (Item.settles v h) (a.incurs net b)
      = match a.writes with
        | some (h', r) => if h' = h ∧ r.status ≠ .PENDING then r.size.val else 0
        | none => 0 := by
  have hs : ∀ h' r, tally (Item.settles v h) (b.settlement net h' r)
      = if h' = h then r.size.val else 0 := by
    intro h' r
    rw [Book.settlement, if_pos (by rw [hw.vault]; exact hw.isVault), hw.vault]
    simp [Item.settles]
  cases a with
  | release x h' t y dst =>
      have hne := hw.not_foreign hg.1
      simp [Act.incurs, Act.writes, Item.settles, hne.symm]
  | giveBack x h' u t y =>
      have hne := hw.not_foreign hg.1
      simp [Act.incurs, Act.writes, Item.settles, hne.symm]
  | register h' r => simp [Act.incurs, Act.writes, Item.settles, hg.2.1]
  | execute h' n r dst =>
      simp [Act.incurs, Act.writes, Item.settles, hs, CommitmentRecord.close]
  | cancel h' n r =>
      simp [Act.incurs, Act.writes, Item.settles, hs, CommitmentRecord.close]
  | expire h' r => simp [Act.incurs, Act.writes, hs, CommitmentRecord.close]
  | _ => simp [Act.incurs, Act.writes, Item.settles]

/-- What a record has settled: its size once it is closed. -/
def CommitmentRecord.done (r : CommitmentRecord) : ℕ :=
  if r.status.Terminal then r.size.val else 0

theorem CommitmentRecord.done_eq_zero {r : CommitmentRecord}
    (h : ¬r.status.Terminal) : r.done = 0 :=
  if_neg h

/-- Along a path from a book where nothing is closed, each hash has
settled what its record says is done. -/
theorem settled_path {m : Multiset Item} {b' : Book}
    (hp : Book.Path net (Act.KeepsWiring net v) b m b') (hl : Lockstep net v b)
    (h₀ : ∀ h, (b.record h).done = 0) (h : Bytes32) :
    Lockstep net v b' ∧ tally (Item.settles v h) m = (b'.record h).done := by
  induction hp with
  | nil => exact ⟨hl, (h₀ h).symm⟩
  | @snoc m b' a _ hok hg ih =>
      obtain ⟨hl', hm⟩ := ih
      refine ⟨hl'.act hok hg, ?_⟩
      rw [tally_add, hm, Act.settledBy_incurs hl'.wired hg, Act.effect_record]
      cases hw : a.writes with
      | none => rfl
      | some hr =>
          obtain ⟨h', r⟩ := hr
          by_cases hh : h' = h
          · subst hh
            simp only [Function.update_self]
            rcases Act.writes_cases hg hw with ⟨hnone, hpend, -⟩ | ⟨hpend, st, hst, rfl⟩
            · simp [CommitmentRecord.done_eq_zero, hnone, hpend, CommitmentStatus.Terminal]
            · have hne : st ≠ .PENDING := hst.ne_pending
              rw [CommitmentRecord.done_eq_zero (by rw [hpend]; exact id),
                CommitmentRecord.done, if_pos (show (CommitmentRecord.close _ st).status.Terminal
                  from hst), if_pos ⟨trivial, hne⟩, zero_add]
          · simp [hh, Function.update_of_ne (Ne.symm hh)]

end Zstrategy.Contracts
