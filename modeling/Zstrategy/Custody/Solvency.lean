/-
Solvency of a vault in a standard token: what it holds covers what it owes,
free and locked, in every configuration of every run, whoever the registry
and the vaults are pointed to. An act changes both sides of the account at
once, so the claim is one equation per act (`Act.solvent`): the surplus
only grows, and only by tokens somebody moves into the vault for nothing.

# Who pays for what

An act that moves tokens out of a vault takes as much off what the vault
owes, and a deposit brings in what it credits. The one exception is a
release whose destination is the vault itself: the debt falls and the tokens
stay, which is a gift like any direct transfer (`Act.gift`). Without gifts
the surplus stays what it was.
-/
import Zstrategy.Custody.Refinement

namespace Zstrategy.Contracts

open Lib Code

open Function (update)

variable {net : Net} {v t : Address} {b b' : Book} {a : Act}

-- ================================================================= the debt

/-- What the vault at `v` owes in token `t`. -/
def Book.owed (v t : Address) (b : Book) : ℕ :=
  ∑ u, b.free v u t + ∑ h, b.locked v h t

/-- A write to the cell `(v', t')` concerns the vault at `v` and `t`. -/
def cell (v t v' t' : Address) (x : ℕ) : ℕ :=
  if v' = v ∧ t' = t then x else 0

theorem cell_add {v' t' : Address} (x y : ℕ) :
    cell v t v' t' (x + y) = cell v t v' t' x + cell v t v' t' y := by
  unfold cell
  split <;> rfl

theorem cell_sub (v' t' : Address) {x y : ℕ} (h : x ≤ y) :
    cell v t v' t' (y - x) + cell v t v' t' x = cell v t v' t' y := by
  unfold cell
  split <;> omega

/-- One cell of a three-level store, summed over its middle key. -/
theorem sum_cell {κ : Type} [Fintype κ] [DecidableEq κ]
    (f : Address → κ → Address → ℕ) (v' : Address) (k : κ) (t' : Address) (x : ℕ) :
    ∑ i, update f v' (update2 (f v') k t' x) v i t + cell v t v' t' (f v' k t')
      = ∑ i, f v i t + cell v t v' t' x := by
  unfold cell
  by_cases hv : v' = v
  · subst hv
    by_cases ht : t' = t
    · subst ht
      have hcol : (fun i => update2 (f v') k t' x i t')
          = update (fun i => f v' i t') k x := by
        funext i
        by_cases hi : i = k
        · subst hi; simp
        · rw [Function.update_of_ne hi, update2_of_ne _ _ fun h => hi h.1]
      have hsum := sum_update (fun i => f v' i t') k x
      rw [← hcol] at hsum
      simpa using hsum
    · have hrow : ∀ i, update2 (f v') k t' x i t = f v' i t :=
        fun i => update2_of_ne _ _ fun h => ht h.2.symm
      simp [hrow, ht]
  · simp [Function.update_of_ne (Ne.symm hv), hv]

theorem owed_setFree (v' u t' : Address) (x : ℕ) :
    (b.setFree v' u t' x).owed v t + cell v t v' t' (b.free v' u t')
      = b.owed v t + cell v t v' t' x := by
  have hsum := sum_cell (v := v) (t := t) b.free v' u t' x
  show ∑ i, update b.free v' _ v i t + ∑ h, b.locked v h t + _ = _
  unfold Book.owed
  omega

theorem owed_setLocked (v' : Address) (h : Bytes32) (t' : Address) (x : ℕ) :
    (b.setLocked v' h t' x).owed v t + cell v t v' t' (b.locked v' h t')
      = b.owed v t + cell v t v' t' x := by
  have hsum := sum_cell (v := v) (t := t) b.locked v' h t' x
  show ∑ u, b.free v u t + ∑ i, update b.locked v' _ v i t + _ = _
  unfold Book.owed
  omega

theorem owed_pay (t' src dst : Address) (x : ℕ) :
    (b.pay net t' src dst x).owed v t = b.owed v t :=
  Book.pay_field (Book.owed v t) (fun _ _ => rfl) t' src dst x

/-- A payment of a standard token, seen from the vault's account. -/
theorem held_pay (ht : net.standard t = true) {t' src : Address} {x : ℕ}
    (hpay : b.CanPay net t' src x) (dst : Address) :
    (b.pay net t' src dst x).held t v + cell v t src t' x
      = b.held t v + cell v t dst t' x := by
  by_cases htt : t' = t
  · subst htt
    have hle := hpay ht
    rw [Book.pay, if_pos ht]
    show update2 (update2 b.held t' src _) t' dst _ t' v + _ = _
    by_cases hd : dst = v
    · subst hd
      by_cases hsrc : src = dst
      · subst hsrc
        simp only [update2_same, cell, and_self, if_true]
        omega
      · rw [update2_same, update2_of_ne _ _ fun h => hsrc h.2.symm]
        simp [cell, hsrc]
    · rw [update2_of_ne _ _ fun h => hd h.2.symm, update2_apply]
      by_cases hsrc : src = v
      · subst hsrc
        simp only [cell, hd, and_self, and_true, if_true, if_false]
        omega
      · simp [cell, hd, hsrc, Ne.symm hsrc]
  · have hheld : (b.pay net t' src dst x).held t v = b.held t v := by
      unfold Book.pay
      split
      · show update2 (update2 b.held t' src _) t' dst _ t v = _
        rw [update2_of_ne _ _ fun h => htt h.1.symm,
          update2_of_ne _ _ fun h => htt h.1.symm]
      · rfl
    rw [hheld]
    simp [cell, htt]

-- ================================================================= one act

/-- Tokens `t` that an act moves into the vault at `v` for nothing. -/
def Act.gift (net : Net) (v t : Address) : Act → Book → ℕ
  | .transfer t' _ dst x, _ => cell v t dst t' x
  | .mint t' dst x, _ => cell v t dst t' x
  | .release _ _ t' x dst, _ => cell v t dst t' x
  | .execute _ _ r dst, b =>
      if net.isVault b.vault = true then cell v t dst r.tokenIn r.size.val else 0
  | _, _ => 0

theorem owed_lock {v' u t' : Address} {h : Bytes32} {x : ℕ} (hle : x ≤ b.free v' u t') :
    (b.lock v' h u t' x).owed v t = b.owed v t := by
  have h₁ := owed_setFree (v := v) (t := t) (b := b) v' u t' (b.free v' u t' - x)
  have h₂ := owed_setLocked (v := v) (t := t) (b := b.setFree v' u t' (b.free v' u t' - x))
    v' h t' (b.locked v' h t' + x)
  change (b.lock v' h u t' x).owed v t + cell v t v' t' (b.locked v' h t') = _ at h₂
  have h₃ := cell_sub (v := v) (t := t) v' t' hle
  rw [cell_add] at h₂
  omega

theorem owed_giveBack {v' u t' : Address} {h : Bytes32} {x : ℕ}
    (hle : x ≤ b.locked v' h t') :
    (b.giveBack v' h u t' x).owed v t = b.owed v t := by
  have h₁ := owed_setLocked (v := v) (t := t) (b := b) v' h t' (b.locked v' h t' - x)
  have h₂ := owed_setFree (v := v) (t := t)
    (b := b.setLocked v' h t' (b.locked v' h t' - x)) v' u t' (b.free v' u t' + x)
  change (b.giveBack v' h u t' x).owed v t + cell v t v' t' (b.free v' u t') = _ at h₂
  have h₃ := cell_sub (v := v) (t := t) v' t' hle
  rw [cell_add] at h₂
  omega

/-- A release takes from the debt what it pays. -/
theorem solvent_release (ht : net.standard t = true) {v' t' dst : Address} {h : Bytes32}
    {x : ℕ} (hle : x ≤ b.locked v' h t') (hpay : b.CanPay net t' v' x) :
    (b.release net v' h t' x dst).held t v + b.owed v t
      = b.held t v + (b.release net v' h t' x dst).owed v t + cell v t dst t' x := by
  have h₁ := owed_setLocked (v := v) (t := t) (b := b) v' h t' (b.locked v' h t' - x)
  have h₂ := held_pay (v := v) ht (b := b.setLocked v' h t' (b.locked v' h t' - x)) hpay dst
  change (b.release net v' h t' x dst).held t v + _ = b.held t v + _ at h₂
  have h₃ := cell_sub (v := v) (t := t) v' t' hle
  have h₄ : (b.release net v' h t' x dst).owed v t
      = (b.setLocked v' h t' (b.locked v' h t' - x)).owed v t := owed_pay _ _ _ _
  omega

/-- A vault half that moves no token and keeps the debt. -/
private theorem solvent_onVault {c : Book} {f : Address → Book → Book}
    (hheld : c.held = b.held) (howed : c.owed v t = b.owed v t)
    (hf : ∀ v b, (f v b).held = b.held)
    (h : net.isVault c.vault = true → (f c.vault c).owed v t = c.owed v t) :
    (c.onVault net f).held t v + b.owed v t
      = b.held t v + (c.onVault net f).owed v t + 0 := by
  have hsame : (c.onVault net f).owed v t = c.owed v t := by
    unfold Book.onVault
    split
    case isTrue hv => exact h hv
    case isFalse => rfl
  rw [Book.onVault_field Book.held hf, hheld, hsame, howed, add_zero]

/-- One act moves both sides of the account: what the vault holds grows
against what it owes by the act's gift. -/
theorem Act.solvent (hv : net.isVault v = true) (ht : net.standard t = true)
    (hg : a.guard net b) :
    (a.effect net b).held t v + b.owed v t
      = b.held t v + (a.effect net b).owed v t + a.gift net v t b := by
  have hother : ∀ {u : Address} (t' : Address) (x : ℕ), net.isVault u = false →
      cell v t u t' x = 0 := by
    intro u t' x hu
    refine if_neg fun h => ?_
    rw [← h.1, hu] at hv
    cases hv
  cases a with
  | deposit v' u t' x =>
      have h₁ := held_pay (v := v) ht hg.2.2.2.1 v'
      have h₂ := owed_setFree (v := v) (t := t) (b := b.pay net t' u v' x) v' u t'
        (b.free v' u t' + x)
      rw [owed_pay, Book.pay_field Book.free (fun _ _ => rfl), cell_add] at h₂
      rw [hother t' x hg.2.1] at h₁
      show (b.pay net t' u v' x).held t v + _ = _ + ((b.pay net t' u v' x).setFree v' u t'
        (b.free v' u t' + x)).owed v t + 0
      omega
  | withdraw v' u t' x =>
      obtain ⟨-, hu, -, hle, hpay⟩ := hg
      have h₁ := owed_setFree (v := v) (t := t) (b := b) v' u t' (b.free v' u t' - x)
      have h₂ := held_pay (v := v) ht (b := b.setFree v' u t' (b.free v' u t' - x)) hpay u
      have h₃ := cell_sub (v := v) (t := t) v' t' hle
      rw [hother t' x hu] at h₂
      change _ = b.held t v + 0 at h₂
      show ((b.setFree v' u t' (b.free v' u t' - x)).pay net t' v' u x).held t v + _
        = _ + ((b.setFree v' u t' (b.free v' u t' - x)).pay net t' v' u x).owed v t + 0
      rw [owed_pay]
      omega
  | lock v' h u t' x =>
      have h₁ := owed_lock (v := v) (t := t) (h := h) hg.2.1
      show b.held t v + _ = b.held t v + (b.lock v' h u t' x).owed v t + 0
      omega
  | giveBack v' h u t' x =>
      have h₁ := owed_giveBack (v := v) (t := t) (u := u) hg.2.1
      show b.held t v + _ = b.held t v + (b.giveBack v' h u t' x).owed v t + 0
      omega
  | release v' h t' x dst => exact solvent_release ht hg.2.1 hg.2.2
  | register h r =>
      refine solvent_onVault (c := b.setRecord h r) rfl rfl
        (fun _ _ => rfl) fun hv' => ?_
      exact owed_lock (hg.2.2.2 hv').2
  | execute h n r dst =>
      show ((((b.spend n).setRecord h (r.close .EXECUTED)).onVault net _).held t v) + _
        = _ + (((b.spend n).setRecord h (r.close .EXECUTED)).onVault net _).owed v t
          + if net.isVault b.vault = true then cell v t dst r.tokenIn r.size.val else 0
      unfold Book.onVault
      change (if net.isVault b.vault = true then _ else _ : Book).held t v + _
        = _ + (if net.isVault b.vault = true then _ else _ : Book).owed v t + _
      split
      case isTrue hv' =>
        obtain ⟨hcov, hpay⟩ := (hg.2.2.2 hv').2
        exact solvent_release (b := (b.spend n).setRecord h (r.close .EXECUTED)) ht hcov
          hpay
      case isFalse => exact (Nat.add_zero (b.held t v + b.owed v t)).symm
  | cancel h n r =>
      refine solvent_onVault (c := (b.spend n).setRecord h (r.close .CANCELLED)) rfl rfl
        (fun _ _ => rfl) fun hv' => ?_
      exact owed_giveBack (hg.2.2 hv').2
  | expire h r =>
      refine solvent_onVault (c := b.setRecord h (r.close .EXPIRED)) rfl rfl
        (fun _ _ => rfl) fun hv' => ?_
      exact owed_giveBack (hg.2 hv').2
  | transfer t' src dst x =>
      have h₁ := held_pay (v := v) ht hg.2 dst
      rw [hother t' x hg.1] at h₁
      show (b.pay net t' src dst x).held t v + _
        = _ + (b.pay net t' src dst x).owed v t + cell v t dst t' x
      rw [owed_pay]
      omega
  | mint t' dst x =>
      have hheld : update2 b.held t' dst (b.held t' dst + x) t v
          = b.held t v + cell v t dst t' x := by
        rw [update2_apply, cell]
        by_cases h : t = t' ∧ v = dst
        · obtain ⟨rfl, rfl⟩ := h
          simp
        · rw [if_neg h, if_neg fun h' => h ⟨h'.2.symm, h'.1.symm⟩, add_zero]
      show update2 b.held t' dst (b.held t' dst + x) t v + b.owed v t
        = b.held t v + b.owed v t + cell v t dst t' x
      omega
  | setVault | setAdapter | setVaultRegistry =>
      exact (Nat.add_zero (b.held t v + b.owed v t)).symm

-- ==================================================================== runs

/-- The surplus of the vault never falls, and grows by gifts only. -/
theorem solvent_path {ok : Act → Prop} {m : Multiset Item}
    (hp : Book.Path net ok b m b') (hv : net.isVault v = true)
    (ht : net.standard t = true) :
    b.held t v + b'.owed v t ≤ b'.held t v + b.owed v t
      ∧ ((∀ a, ok a → ∀ b, a.gift net v t b = 0) →
        b'.held t v + b.owed v t = b.held t v + b'.owed v t) := by
  induction hp with
  | nil => exact ⟨le_refl _, fun _ => rfl⟩
  | @snoc m b' a _ hok hg ih =>
      have hact := Act.solvent hv ht hg
      refine ⟨by omega, fun hgift => ?_⟩
      have hzero := hgift a hok b'
      have heq := ih.2 hgift
      omega

/-- The call reverts as soon as it is made. -/
def Reverts (net : Net) (w : World) (i : Msg × Call) : Prop :=
  ∃ e, entry net i w = .revert e

/-- Nobody moves `t` into the vault at `v` directly, and no release of `t`
has `v` itself as its destination. -/
def NoGift (net : Net) (v t : Address) : World → ChainMove → Prop
  | _, .outside (.transfer t' _ dst _) => ¬(dst = v ∧ t' = t)
  | _, .outside (.mint t' dst _) => ¬(dst = v ∧ t' = t)
  | w, .enter (m, .releaseForExecution x h t' a dst) =>
      dst = v ∧ t' = t → Reverts net w (m, .releaseForExecution x h t' a dst)
  | w, .enter (m, .executeCommitment h n p x) =>
      w.registry.dexAdapter = v ∧ (w.registry.commitments h).tokenIn = t →
        Reverts net w (m, .executeCommitment h n p x)
  | _, _ => True

/-- The acts of such runs, once the calls that revert outright are left
out, bring no gift. -/
def GiftFree (net : Net) (v t : Address) (a : Act) : Prop :=
  ∀ b, a.gift net v t b = 0

theorem NoGift.skip {c c' : ChainConfig} (h : (chain net).Run (NoGift net v t) c c') :
    (chain net).Run (fun w mv => ∀ act, MakesAct w mv act → GiftFree net v t act) c c' := by
  have hzero : ∀ {dst t'} {x : ℕ}, ¬(dst = v ∧ t' = t) → cell v t dst t' x = 0 :=
    fun h => if_neg h
  refine h.skip fun w mv hmv => ?_
  cases mv with
  | outside e =>
      left
      intro act hact b
      cases e with
      | transfer | mint =>
          cases hact
          exact hzero hmv
      | _ => cases hact
  | enter i =>
      obtain ⟨m, call⟩ := i
      cases call with
      | releaseForExecution x h t' y dst =>
          by_cases hself : dst = v ∧ t' = t
          · obtain ⟨e, he⟩ := hmv hself
            exact .inr ⟨_, e, rfl, he⟩
          · left
            intro act hact b
            cases hact
            exact hzero hself
      | executeCommitment h n p x =>
          by_cases hself : w.registry.dexAdapter = v
              ∧ (w.registry.commitments h).tokenIn = t
          · obtain ⟨e, he⟩ := hmv hself
            exact .inr ⟨_, e, rfl, he⟩
          · left
            intro act hact b
            cases hact
            simp only [Act.gift, hzero hself, ite_self]
      | registerCommitmentBatch =>
          left
          intro act hact b
          obtain ⟨row, -, rfl⟩ := hact
          rfl
      | sweepExpired =>
          left
          intro act hact b
          obtain ⟨h, -, r, rfl⟩ := hact
          rfl
      | _ =>
          left
          intro act hact b
          cases hact <;> rfl
  | _ =>
      left
      intro act hact
      cases hact

/-- What the vault at `v` owes its users in token `t`. -/
def World.owed (v t : Address) (w : World) : ℕ :=
  ∑ u, (w.vaults v).freeBalance u t + ∑ h, (w.vaults v).lockedBalance h t

theorem Deployed.owed {w : World} (hd : Deployed w) : w.book.owed v t = 0 := by
  simp [Book.owed, World.book, hd.free, hd.locked]

/-- After whatever was done, a standard token's balance covers the debt. -/
theorem Trans.covered {ok : Act → Prop} {d : Multiset Item} {w w' : World} (hd : Deployed w)
    (hv : net.isVault v = true) (ht : net.standard t = true) (h : Trans net ok d w w') :
    w'.owed v t ≤ w'.balances t v := by
  obtain ⟨m, es, rs, hp, -⟩ := h
  have hle := (solvent_path hp hv ht).1
  rw [hd.owed, add_zero] at hle
  exact le_trans (Nat.le_add_left _ _) hle

/-- Solvency under hostile re-entry: in every configuration of every run
the vault's balance of a standard token covers all free and all locked
balances; it is exactly their sum as long as nobody moves the token into
the vault directly and it is not released to the vault itself. -/
theorem solvency {w : World} (hd : Deployed w) (hv : net.isVault v = true)
    (ht : net.standard t = true) :
    (∀ c, (chain net).Run anyMove ⟨w, []⟩ c → c.world.owed v t ≤ c.world.balances t v)
      ∧ (w.balances t v = 0 → ∀ c, (chain net).Run (NoGift net v t) ⟨w, []⟩ c →
        c.world.balances t v = c.world.owed v t) := by
  constructor
  · intro c hrun
    obtain ⟨d, m, es, rs, hp, -⟩ := run_tracks allows_any hrun
    have hle := (solvent_path hp hv ht).1
    rw [hd.owed, add_zero] at hle
    exact le_trans (Nat.le_add_left _ _) hle
  · intro hzero c hrun
    obtain ⟨d, m, es, rs, hp, -⟩ := run_tracks (fun _ _ h => h) (NoGift.skip hrun)
    have heq := (solvent_path hp hv ht).2 fun a ha => ha
    rw [hd.owed, add_zero, show w.book.held t v = 0 from hzero, zero_add] at heq
    exact heq

/-- A deposit of a hostile token, whose code registers a commitment of
user 8 in the middle. -/
def sampleReentry : List ChainMove :=
  sampleSetup ++
    [call 9 (.deposit 3 12 5), call 8 (.registerCommitment 77 10 11 60 5 2000 .ORDER_FILL)]

theorem solvency_sample :
    ∃ c, (chain sampleNet).play sampleReentry ⟨sampleWorld, []⟩ = some c
      ∧ c.stack.length = 1 ∧ c.world.balances 10 3 = 100 ∧ c.world.owed 3 10 = 100 := by
  have hplay : ((chain sampleNet).play sampleReentry ⟨sampleWorld, []⟩).map
      (fun c => (c.stack.length, c.world.balances 10 3)) = some (1, 100) := by
    decide +kernel
  obtain ⟨c, hc, hval⟩ := Option.map_eq_some_iff.1 hplay
  obtain ⟨hlen, hbal⟩ := Prod.mk.inj hval
  have hfree : ∀ s, ∀ m ∈ sampleReentry, NoGift sampleNet 3 10 s m := by
    simp [sampleReentry, sampleSetup, call, NoGift]
  have heq := (solvency (v := 3) (t := 10) sampleWorld_deployed rfl rfl).2 rfl c
    (.of_play hfree hc)
  exact ⟨c, hc, hlen, hbal, heq.symm.trans hbal⟩

end Zstrategy.Contracts
