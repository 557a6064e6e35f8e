/-
Where the collateral of a commitment is while the guardian points the
registry from one vault to another. Each pending hash has a home: the
vault that was in use when it was opened keeps what is due to it, and the
other vaults of this registry keep nothing. A closing act needs the lock,
so it only happens while the registry points at the home.

The invariant is `Homed`; one act keeps it and moves no home of a pending
hash (`Homed.act`).

Lockstep is the special case in which the registry points at one vault all
along. Here the guardian may repoint it at any moment, so an order may be
opened in one vault and asked for in another; what survives is that its lock
is moved by its own exit only.
-/
import Zstrategy.Custody.Lockstep
import Zstrategy.Custody.Settlement

namespace Zstrategy.Contracts

open Lib Code

open Function (update)

variable {net : Net} {v : Address} {b b₀ b' : Book} {a : Act} {home : Bytes32 → Address}

-- ================================================================== vaults

/-- A vault that obeys our registry. -/
def Book.Ours (net : Net) (v : Address) (b : Book) : Prop :=
  net.isVault v = true ∧ b.registryOf v = net.registry

theorem Book.Ours.not_foreign (hv : b.Ours net v) {x : Address} (hf : b.Foreign net x) :
    v ≠ x := by
  intro heq
  exact hf.2 (heq ▸ hv.2)

/-- Acts that re-point the registry to vaults of its own only, and no vault
to another registry. -/
def Act.Rewires (net : Net) (b₀ : Book) : Act → Prop
  | .setVault x => b₀.Ours net x
  | .setVaultRegistry _ _ => False
  | _ => True

/-- Moves of users, keepers and the guardian: the registry is re-pointed
to vaults that obey it only. No vault's owner points his vault elsewhere. -/
def Rewires (net : Net) (w₀ : World) : World → ChainMove → Prop
  | _, .enter (_, .setCollateralVault x) => w₀.book.Ours net x
  | _, .enter (_, .setVaultRegistry _ _) => False
  | _, _ => True

theorem Rewires.allows (net : Net) (w₀ : World) :
    Allows (Act.Rewires net w₀.book) (Rewires net w₀) := by
  intro w mv hmv act hact
  cases mv with
  | enter i =>
      obtain ⟨m, call⟩ := i
      cases call with
      | registerCommitmentBatch =>
          obtain ⟨row, -, rfl⟩ := hact
          trivial
      | sweepExpired =>
          obtain ⟨h, -, r, rfl⟩ := hact
          trivial
      | setCollateralVault =>
          cases hact
          exact hmv
      | setVaultRegistry => exact hmv.elim
      | _ => cases hact <;> trivial
  | outside e => cases e <;> cases hact <;> trivial
  | _ => cases hact

theorem Act.Rewires.registryOf (hok : a.Rewires net b₀) :
    (a.effect net b).registryOf = b.registryOf := by
  rw [Act.effect_registryOf]
  cases a with
  | setVaultRegistry => exact hok.elim
  | _ => rfl

-- =================================================================== locks

/-- An act leaves the locks of the vaults that the registry does not use. -/
theorem Act.effect_locked_of_ne (hv : b.Ours net v) (hne : v ≠ b.vault)
    (hg : a.guard net b) : (a.effect net b).locked v = b.locked v := by
  have hpay : ∀ (b : Book) t src dst x, (b.pay net t src dst x).locked = b.locked :=
    fun b t src dst x => Book.pay_field Book.locked (fun _ _ => rfl) t src dst x
  have honVault : ∀ (c : Book) (f : Address → Book → Book), c.vault = b.vault →
      c.locked = b.locked → (∀ c, (f b.vault c).locked v = c.locked v) →
      (c.onVault net f).locked v = b.locked v := by
    intro c f hvault hlocked hf
    unfold Book.onVault
    split
    case isTrue => rw [hvault, hf, hlocked]
    case isFalse => rw [hlocked]
  cases a with
  | deposit x u t y => exact congrFun (hpay _ _ _ _ _) v
  | withdraw x u t y => exact congrFun (hpay _ _ _ _ _) v
  | transfer t src dst y => exact congrFun (hpay _ _ _ _ _) v
  | lock x h u t y => exact Function.update_of_ne (hv.not_foreign hg.1) _ _
  | giveBack x h u t y => exact Function.update_of_ne (hv.not_foreign hg.1) _ _
  | release x h t y dst =>
      rw [Act.effect, Book.release, hpay]
      exact Function.update_of_ne (hv.not_foreign hg.1) _ _
  | register h r => exact honVault _ _ rfl rfl fun _ => Function.update_of_ne hne _ _
  | execute h n r dst =>
      refine honVault _ _ rfl rfl fun c => ?_
      rw [Book.release, hpay]
      exact Function.update_of_ne hne _ _
  | cancel h n r => exact honVault _ _ rfl rfl fun _ => Function.update_of_ne hne _ _
  | expire h r => exact honVault _ _ rfl rfl fun _ => Function.update_of_ne hne _ _
  | _ => rfl

/-- A pending hash is closed only where its lock covers it. -/
theorem Act.covers_of_writes {h : Bytes32} {r : CommitmentRecord} (hg : a.guard net b)
    (hw : a.writes = some (h, r)) (hp : (b.record h).status = .PENDING)
    (hv : net.isVault b.vault = true) : b.Covers h (b.record h) b.vault := by
  cases a with
  | register h' r' =>
      cases hw
      rw [hg.1] at hp
      cases hp
  | execute h' n r' dst =>
      cases hw
      obtain ⟨⟨rfl, -⟩, -, -, hobeys⟩ := hg
      exact (hobeys hv).2.1
  | cancel h' n r' =>
      cases hw
      obtain ⟨⟨rfl, -⟩, -, hobeys⟩ := hg
      exact (hobeys hv).2
  | expire h' r' =>
      cases hw
      obtain ⟨⟨rfl, -⟩, hobeys⟩ := hg
      exact (hobeys hv).2
  | _ => cases hw

-- =================================================================== homes

/-- The vault in use is ours, and of our vaults the home of a pending hash
alone keeps what is due to it. -/
structure Homed (net : Net) (home : Bytes32 → Address) (b : Book) : Prop where
  vault : b.Ours net b.vault
  ours : ∀ h, (b.record h).status = .PENDING → b.Ours net (home h)
  locked : ∀ v, b.Ours net v → ∀ h t,
    b.locked v h t = if v = home h then (b.record h).due t else 0
  size : ∀ h, (b.record h).status = .PENDING → 0 < (b.record h).size.val

/-- The lock of a pending hash covers it at its home, and nowhere else. -/
theorem Homed.covers_iff (hh : Homed net home b) {h : Bytes32}
    (hp : (b.record h).status = .PENDING) (hv : b.Ours net v) :
    b.Covers h (b.record h) v ↔ v = home h := by
  have hsize := hh.size h hp
  rw [Book.Covers, hh.locked v hv h]
  by_cases hhome : v = home h
  · rw [if_pos hhome, CommitmentRecord.due, if_pos ⟨hp, rfl⟩]
    exact ⟨fun _ => hhome, fun _ => le_rfl⟩
  · rw [if_neg hhome]
    exact ⟨fun hle => by omega, fun heq => absurd heq hhome⟩

/-- Opening a hash makes the vault in use its home. -/
def Act.rehome (a : Act) (b : Book) (home : Bytes32 → Address) : Bytes32 → Address :=
  match a with
  | .register h _ => update home h b.vault
  | _ => home

theorem Act.rehome_of_pending {h : Bytes32} (hg : a.guard net b)
    (hp : (b.record h).status = .PENDING) : a.rehome b home h = home h := by
  cases a with
  | register h' r =>
      refine Function.update_of_ne ?_ _ _
      intro heq
      subst heq
      rw [hg.1] at hp
      cases hp
  | _ => rfl

theorem Act.rehome_of_not_written {h : Bytes32} (hw : ∀ r, a.writes ≠ some (h, r)) :
    a.rehome b home h = home h := by
  cases a with
  | register h' r =>
      refine Function.update_of_ne ?_ _ _
      intro heq
      exact hw r (heq ▸ rfl)
  | _ => rfl

/-- A hash whose record is written has the vault in use for its home. -/
theorem Homed.written (hh : Homed net home b) (hg : a.guard net b) {h : Bytes32}
    {r : CommitmentRecord} (hw : a.writes = some (h, r)) :
    a.rehome b home h = b.vault ∧ ∀ v, b.Ours net v → ∀ t,
      b.locked v h t = if v = b.vault then (b.record h).due t else 0 := by
  rcases Act.writes_cases hg hw with ⟨hnone, hpend, -⟩ | ⟨hpend, st, hst, rfl⟩
  · have hne : (b.record h).status ≠ .PENDING := by
      rw [hnone]
      decide
    constructor
    · cases a with
      | register h' r' =>
          cases hw
          exact Function.update_self _ _ _
      | execute | cancel | expire =>
          cases hw
          cases hpend
      | _ => cases hw
    · intro v hv t
      rw [hh.locked v hv, (b.record h).due_of_ne hne, ite_self, ite_self]
  · have hcov := Act.covers_of_writes hg hw hpend hh.vault.1
    have hhome : b.vault = home h := (hh.covers_iff hpend hh.vault).1 hcov
    rw [hhome]
    exact ⟨Act.rehome_of_pending hg hpend, fun v hv t => hh.locked v hv h t⟩

theorem Homed.act (hh : Homed net home b) (hreg : b.registryOf = b₀.registryOf)
    (hok : a.Rewires net b₀) (hg : a.guard net b) :
    Homed net (a.rehome b home) (a.effect net b) := by
  have hours : ∀ v, (a.effect net b).Ours net v ↔ b.Ours net v := by
    intro v
    rw [Book.Ours, hok.registryOf]
    exact Iff.rfl
  have hwired : b.Wired net b.vault := ⟨hh.vault.1, rfl, hh.vault.2⟩
  have hvault : b.Ours net (a.effect net b).vault := by
    rw [Act.effect_vault]
    cases a with
    | setVault x =>
        show net.isVault x = true ∧ b.registryOf x = net.registry
        rw [hreg]
        exact hok
    | _ => exact hh.vault
  have hrecord := Act.effect_record net a b
  have hused := Act.effect_locked hwired hg
  cases hw : a.writes with
  | none =>
      have hrehome : a.rehome b home = home := funext fun h =>
        Act.rehome_of_not_written fun r hr => by rw [hw] at hr; cases hr
      simp only [hw] at hrecord hused
      have hlocked : ∀ v, b.Ours net v → (a.effect net b).locked v = b.locked v := by
        intro v hv
        by_cases hvb : v = b.vault
        · rw [hvb, hused]
        · exact Act.effect_locked_of_ne hv hvb hg
      refine ⟨(hours _).2 hvault, ?_, ?_, ?_⟩
      · intro h hp
        rw [hrecord] at hp
        rw [hrehome]
        exact (hours _).2 (hh.ours h hp)
      · intro v hv h t
        have hv := (hours v).1 hv
        rw [hlocked v hv, hrecord, hrehome]
        exact hh.locked v hv h t
      · intro h hp
        rw [hrecord] at hp ⊢
        exact hh.size h hp
  | some hr =>
      obtain ⟨h', r⟩ := hr
      simp only [hw] at hrecord hused
      obtain ⟨hhome, hold⟩ := hh.written hg hw
      have hother : ∀ h, h ≠ h' → a.rehome b home h = home h := by
        intro h hne
        refine Act.rehome_of_not_written fun r' hr' => ?_
        rw [hw] at hr'
        cases hr'
        exact hne rfl
      refine ⟨(hours _).2 hvault, ?_, ?_, ?_⟩
      · intro h hp
        by_cases hh' : h = h'
        · subst hh'
          rw [hhome]
          exact (hours _).2 hh.vault
        · rw [hrecord, Function.update_of_ne hh'] at hp
          rw [hother h hh']
          exact (hours _).2 (hh.ours h hp)
      · intro v hv h t
        have hv := (hours v).1 hv
        rw [hrecord]
        by_cases hvb : v = b.vault
        · subst hvb
          rw [hused]
          by_cases hh' : h = h'
          · subst hh'
            have hdue : b.locked b.vault h = (b.record h).due := by
              funext t
              rw [hold _ hv, if_pos rfl]
            rw [hhome, if_pos rfl, Function.update_self, update2, Function.update_self, hdue]
            exact relock_due (Act.writes_cases hg hw) t
          · rw [hother h hh', Function.update_of_ne hh', ← hh.locked _ hv h t, update2,
              Function.update_of_ne hh']
        · rw [Act.effect_locked_of_ne hv hvb hg]
          by_cases hh' : h = h'
          · subst hh'
            rw [hhome, if_neg hvb, hold v hv, if_neg hvb]
          · rw [hother h hh', Function.update_of_ne hh', ← hh.locked v hv h t]
      · intro h hp
        by_cases hh' : h = h'
        · subst hh'
          rw [hrecord, Function.update_self] at hp ⊢
          rcases Act.writes_cases hg hw with ⟨-, -, hpos⟩ | ⟨-, st, hst, rfl⟩
          · exact hpos
          · exact absurd hp hst.ne_pending
        · rw [hrecord, Function.update_of_ne hh'] at hp ⊢
          exact hh.size h hp

/-- What ends pending was pending since it was opened. -/
theorem CommitmentStatus.Follows.pending {st st' : CommitmentStatus} (h : st.Follows st')
    (hst' : st' = .PENDING) (hst : st ≠ .NONE) : st = .PENDING := by
  cases st with
  | NONE => exact absurd rfl hst
  | PENDING => rfl
  | EXECUTED | CANCELLED | EXPIRED => exact (h.terminal trivial).symm.trans hst'

/-- Along a path the homes of hashes that stay pending stay. -/
theorem homed_path {m : Multiset Item} (hp : Book.Path net (Act.Rewires net b₀) b m b')
    (hh : Homed net home b) (hreg : b.registryOf = b₀.registryOf) :
    ∃ home', Homed net home' b' ∧ b'.registryOf = b₀.registryOf
      ∧ ∀ h, (b.record h).status = .PENDING → (b'.record h).status = .PENDING →
        home' h = home h := by
  induction hp with
  | nil => exact ⟨home, hh, hreg, fun _ _ _ => rfl⟩
  | @snoc m b' a hp hok hg ih =>
      obtain ⟨home', hh', hreg', hsame⟩ := ih
      refine ⟨a.rehome b' home', hh'.act hreg' hok hg, hok.registryOf.trans hreg', ?_⟩
      intro h hstart hend
      have hmid : (b'.record h).status = .PENDING := by
        refine (Act.evolves hg h).follows.pending hend ?_
        refine (evolves_path hp h).follows.ne_none ?_
        rw [hstart]
        decide
      rw [Act.rehome_of_pending hg hmid, hsame h hstart hmid]

end Zstrategy.Contracts
