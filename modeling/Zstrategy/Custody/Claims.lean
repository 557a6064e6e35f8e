/-
Custody of each user's collateral. What a user can claim of a token is its
free balance in the vault and the sizes of its pending commitments; a
registration moves size from the first part to the second, a cancellation
or an expiry moves it back to the same user, and only deposits, withdrawals
and executions change the total.

The step is `Act.claim`, about one act in a wired book. Along a path the
acts' changes add up over its items (`claim_path`); an execution counts the
size in the final record of its hash, which is the one it was registered
with.

A user's claim is read in one vault, the one that the registry points to and
that points back. Foreign registries and other vaults are excluded by the
wiring, not by what they would do.
-/
import Zstrategy.Custody.LockstepRuns
import Zstrategy.Custody.Settlement

namespace Zstrategy.Contracts

open Lib Code

open Function (update)

variable {net : Net} {v : Address} {b b' : Book} {a : Act} {u t : Address}

-- =================================================================== claims

/-- The size of a record, if it is `u`'s in token `t`. -/
def CommitmentRecord.stake (u t : Address) (r : CommitmentRecord) : ℕ :=
  if r.owner = u ∧ r.tokenIn = t then r.size.val else 0

/-- The stake of a record that is pending. -/
def CommitmentRecord.pendingStake (u t : Address) (r : CommitmentRecord) : ℕ :=
  if r.status = .PENDING then r.stake u t else 0

/-- What `u` can claim of `t`: the free balance, and the sizes of the
pending commitments owned by `u` with tokenIn `t`. -/
def Book.claim (v u t : Address) (b : Book) : ℕ :=
  b.free v u t + ∑ h, (b.record h).pendingStake u t

/-- What an act adds to `u`'s claim on `t`. -/
def Item.credits (v u t : Address) : Item → ℕ
  | .deposit v' u' t' x => if v' = v ∧ u' = u ∧ t' = t then x else 0
  | _ => 0

/-- What an act takes from `u`'s claim on `t`, given the records. -/
def Item.debits (v u t : Address) (record : Bytes32 → CommitmentRecord) : Item → ℕ
  | .withdraw v' u' t' x => if v' = v ∧ u' = u ∧ t' = t then x else 0
  | .execute h _ => (record h).stake u t
  | _ => 0

/-- What an act takes from `u`'s free balance of `t`. -/
def Item.takes (v u t : Address) : Item → ℕ
  | .withdraw v' u' t' x => if v' = v ∧ u' = u ∧ t' = t then x else 0
  | .register _ u' t' x => if u' = u ∧ t' = t then x else 0
  | _ => 0

-- ================================================================= one act

/-- What an act puts into `u`'s free balance of `t`. -/
def Act.gives (v u t : Address) : Act → ℕ
  | .deposit v' u' t' x => if v' = v ∧ u' = u ∧ t' = t then x else 0
  | .cancel _ _ r => r.stake u t
  | .expire _ r => r.stake u t
  | _ => 0

/-- A quantity that settlements do not count is counted at the act's item. -/
theorem tally_incurs {f : Item → ℕ} (hf : ∀ v h t x, f (.settled v h t x) = 0) :
    tally f (a.incurs net b) = match a.item with | some i => f i | none => 0 := by
  have hs : ∀ h r, tally f (b.settlement net h r) = 0 := by
    intro h r
    unfold Book.settlement
    split <;> simp [hf]
  cases a <;> simp [Act.incurs, Act.item, hs, hf, -Multiset.singleton_add]

/-- One cell of one vault's free balances is written. -/
theorem Book.free_setFree (v' u' t' : Address) (x : ℕ) :
    (b.setFree v' u' t' x).free v u t
      = if v' = v ∧ u' = u ∧ t' = t then x else b.free v u t := by
  unfold Book.setFree
  by_cases hv : v = v'
  · subst hv
    simp only [Function.update_self, update2_apply, eq_comm (a := u), eq_comm (a := t),
      true_and]
  · simp only [Function.update_of_ne hv, Ne.symm hv, false_and, if_false]

/-- What is given back is the owner's. -/
private theorem free_giveBack {h : Bytes32} {r : CommitmentRecord} :
    (b.giveBack v h r.owner r.tokenIn r.size.val).free v u t + 0
      = b.free v u t + r.stake u t := by
  unfold Book.giveBack CommitmentRecord.stake
  rw [Book.free_setFree]
  simp only [true_and]
  split
  case isTrue h' =>
    obtain ⟨rfl, rfl⟩ := h'
    rfl
  case isFalse => rfl

/-- Free balances: one act takes and gives. -/
theorem Act.free (hw : b.Wired net v) (hg : a.guard net b) :
    (a.effect net b).free v u t + tally (Item.takes v u t) (a.incurs net b)
      = b.free v u t + a.gives v u t := by
  have hpay : ∀ (b : Book) t src dst x, (b.pay net t src dst x).free = b.free :=
    fun b t src dst x => Book.pay_field Book.free (fun _ _ => rfl) t src dst x
  rw [tally_incurs fun _ _ _ _ => rfl]
  cases a with
  | deposit v' u' t' x =>
      simp only [Act.effect, Book.free_setFree, Act.item, Item.takes, Act.gives]
      split
      case isTrue h =>
        obtain ⟨rfl, rfl, rfl⟩ := h
        omega
      case isFalse => rw [hpay]
  | withdraw v' u' t' x =>
      have hle := hg.2.2.2.1
      simp only [Act.effect, hpay, Book.free_setFree, Act.item, Item.takes, Act.gives]
      split
      case isTrue h =>
        obtain ⟨rfl, rfl, rfl⟩ := h
        omega
      case isFalse => rfl
  | lock v' h u' t' x =>
      have hne := hw.not_foreign hg.1
      show (b.setFree v' u' t' _).free v u t + 0 = b.free v u t + 0
      rw [Book.free_setFree, if_neg fun h => hne h.1.symm]
  | giveBack v' h u' t' x =>
      have hne := hw.not_foreign hg.1
      show ((b.setLocked v' h t' _).setFree v' u' t' _).free v u t + 0 = b.free v u t + 0
      rw [Book.free_setFree, if_neg fun h => hne h.1.symm]
      rfl
  | release v' h t' x dst =>
      simp only [Act.effect, Book.release, hpay]
      rfl
  | register h r =>
      have hle := (hg.2.2.2 (by rw [hw.vault]; exact hw.isVault)).2
      rw [hw.vault] at hle
      rw [Act.effect, Book.onVault_eq hw.isVault (by exact hw.vault)]
      show ((b.setRecord h r).setFree v r.owner r.tokenIn _).free v u t + _ = _ + 0
      simp only [Book.free_setFree, Act.item, Item.takes, true_and]
      split
      case isTrue h' =>
        obtain ⟨rfl, rfl⟩ := h'
        show b.free v _ _ - _ + _ = b.free v _ _ + 0
        omega
      case isFalse => rfl
  | execute h n r dst =>
      rw [Act.effect, Book.onVault_eq hw.isVault (by exact hw.vault), Book.release, hpay]
      rfl
  | cancel h n r =>
      rw [Act.effect, Book.onVault_eq hw.isVault (by exact hw.vault)]
      exact free_giveBack
  | expire h r =>
      rw [Act.effect, Book.onVault_eq hw.isVault (by exact hw.vault)]
      exact free_giveBack
  | transfer t' src dst x =>
      simp only [Act.effect, hpay]
      rfl
  | _ => rfl

/-- Pending stakes: writing a record exchanges its old stake for the new. -/
theorem Act.pending (net : Net) (b : Book) (u t : Address) {a : Act} {h : Bytes32}
    {r : CommitmentRecord} (hw : a.writes = some (h, r)) :
    ∑ x, ((a.effect net b).record x).pendingStake u t + (b.record h).pendingStake u t
      = ∑ x, (b.record x).pendingStake u t + r.pendingStake u t := by
  have hrec := Act.effect_record net a b
  rw [hw] at hrec
  rw [hrec]
  have hsum := sum_eq_of_eq_off (f := fun x => (update b.record h r x).pendingStake u t)
    (g := fun x => (b.record x).pendingStake u t) h
    fun x hx => by simp only [Function.update_of_ne hx]
  simpa only [Function.update_self] using hsum

theorem Act.pending_same (hw : a.writes = none) :
    ∑ x, ((a.effect net b).record x).pendingStake u t
      = ∑ x, (b.record x).pendingStake u t := by
  have hrec := Act.effect_record net a b
  rw [hw] at hrec
  rw [hrec]

/-- One act changes a claim by its credits and debits. An execution debits
the size in any record that the closed one can still evolve to. -/
theorem Act.claim (hw : b.Wired net v) (hg : a.guard net b)
    {record : Bytes32 → CommitmentRecord}
    (hrec : ∀ h, ((a.effect net b).record h).Evolves (record h)) :
    (a.effect net b).claim v u t
        + tally (Item.debits v u t record) (a.incurs net b)
      = b.claim v u t + tally (Item.credits v u t) (a.incurs net b) := by
  have hfree := Act.free (u := u) (t := t) hw hg
  rw [tally_incurs fun _ _ _ _ => rfl] at hfree
  rw [tally_incurs fun _ _ _ _ => rfl, tally_incurs fun _ _ _ _ => rfl]
  unfold Book.claim
  have hclosed : ∀ (r : CommitmentRecord) {st}, st ≠ .PENDING →
      (r.close st).pendingStake u t = 0 := fun r st h => if_neg h
  cases a with
  | register h r =>
      have hpend := Act.pending net b u t (a := .register h r) rfl
      have hold : (b.record h).pendingStake u t = 0 := by
        simp [CommitmentRecord.pendingStake, hg.1]
      have hnew : r.pendingStake u t = r.stake u t := if_pos hg.2.1
      simp only [Act.item, Item.takes, Item.debits, Item.credits, Act.gives] at hfree ⊢
      simp only [hold, hnew, CommitmentRecord.stake] at hpend
      omega
  | execute h n r dst =>
      obtain ⟨⟨rfl, hp⟩, -⟩ := hg
      have hpend := Act.pending net b u t (a := .execute h n (b.record h) dst) rfl
      have hold : (b.record h).pendingStake u t = (b.record h).stake u t := if_pos hp
      have hstake : (record h).stake u t = (b.record h).stake u t := by
        have hev := hrec h
        rw [Act.effect_record] at hev
        simp only [Act.writes, Function.update_self] at hev
        rw [hev.frozen (show CommitmentStatus.EXECUTED ≠ .NONE by decide)]
        rfl
      rw [hold, hclosed _ (by decide)] at hpend
      simp only [Act.item, Item.takes, Item.debits, Item.credits, Act.gives, hstake]
        at hfree ⊢
      omega
  | cancel h n r =>
      obtain ⟨⟨rfl, hp⟩, -⟩ := hg
      have hpend := Act.pending net b u t (a := .cancel h n (b.record h)) rfl
      have hold : (b.record h).pendingStake u t = (b.record h).stake u t := if_pos hp
      rw [hold, hclosed _ (by decide)] at hpend
      simp only [Act.item, Item.takes, Item.debits, Item.credits, Act.gives] at hfree ⊢
      omega
  | expire h r =>
      obtain ⟨⟨rfl, hp⟩, -⟩ := hg
      have hpend := Act.pending net b u t (a := .expire h (b.record h)) rfl
      have hold : (b.record h).pendingStake u t = (b.record h).stake u t := if_pos hp
      rw [hold, hclosed _ (by decide)] at hpend
      simp only [Act.item, Act.gives] at hfree ⊢
      omega
  | _ =>
      rw [Act.pending_same rfl]
      simp only [Act.item, Item.takes, Item.debits, Item.credits, Act.gives] at hfree ⊢
      omega

-- ================================================================== a path

/-- Along a path in a wired book, a claim changes by what the items credit
and debit. -/
theorem claim_path {m : Multiset Item}
    (hp : Book.Path net (Act.KeepsWiring net v) b m b') (hw : b.Wired net v)
    (record : Bytes32 → CommitmentRecord) (hrec : ∀ h, (b'.record h).Evolves (record h)) :
    b'.claim v u t + tally (Item.debits v u t record) m
      = b.claim v u t + tally (Item.credits v u t) m := by
  induction hp with
  | nil => rfl
  | @snoc m b' a hp _ hg ih =>
      have hw' : b'.Wired net v := hp.inv (fun _ _ h hok _ => h.act hok) hw
      have hlast := Act.claim (u := u) (t := t) hw' hg hrec
      have hprev := ih fun h => (Act.evolves hg h).trans (hrec h)
      rw [tally_add, tally_add]
      omega

/-- Free balances fall by what the items take, at most. -/
theorem free_path {m : Multiset Item}
    (hp : Book.Path net (Act.KeepsWiring net v) b m b') (hw : b.Wired net v) :
    b.free v u t ≤ b'.free v u t + tally (Item.takes v u t) m := by
  induction hp with
  | nil => exact Nat.le_add_right _ _
  | @snoc m b' a hp _ hg ih =>
      have hw' : b'.Wired net v := hp.inv (fun _ _ h hok _ => h.act hok) hw
      have hlast := Act.free (u := u) (t := t) hw' hg
      rw [tally_add]
      omega

/-- An executed hash was pending, and is executed from then on. -/
theorem executed_path {ok : Act → Prop} {m : Multiset Item}
    (hp : Book.Path net ok b m b') {h n : Bytes32} (hi : .execute h n ∈ m) :
    (b'.record h).status = .EXECUTED
      ∧ ((b.record h).status = .NONE ∨ (b.record h).status = .PENDING) := by
  induction hp with
  | nil => exact absurd hi (Multiset.notMem_zero _)
  | @snoc m b' a hp _ hg ih =>
      rcases Multiset.mem_add.1 hi with hi | hi
      · obtain ⟨hex, hb⟩ := ih hi
        have hterm : (b'.record h).status.Terminal := by
          rw [hex]
          trivial
        exact ⟨((Act.evolves hg h).follows.terminal hterm).trans hex, hb⟩
      · rcases Act.mem_incurs hi with hitem | ⟨v, h', t, x, hx⟩
        · cases a with
          | execute h' n' r dst =>
              cases hitem
              obtain ⟨⟨rfl, hpend⟩, -⟩ := hg
              refine ⟨?_, ?_⟩
              · rw [Act.effect_record]
                simp [Act.writes, CommitmentRecord.close]
              · have hf := (evolves_path hp h).follows
                cases hs : (b.record h).status with
                | NONE => exact .inl rfl
                | PENDING => exact .inr rfl
                | EXECUTED | CANCELLED | EXPIRED =>
                    rw [hf.terminal (by rw [hs]; trivial), hs] at hpend
                    cases hpend
          | _ => cases hitem
        · cases hx

-- ============================================================== on the chain

/-- `u`'s claim on `t` in the vault at `v`. -/
def World.claim (v u t : Address) (w : World) : ℕ :=
  (w.vaults v).freeBalance u t + ∑ h, (w.registry.commitments h).pendingStake u t

/-- `u`'s deposits of `t` among the returned calls. -/
def deposited (v u t : Address) (rs : List Receipt) : ℕ :=
  (rs.map fun r => match r.call with
    | .deposit v' t' x => if v' = v ∧ r.sender = u ∧ t' = t then x.val else 0
    | _ => 0).sum

/-- `u`'s withdrawals of `t` among the returned calls. -/
def withdrawn (v u t : Address) (rs : List Receipt) : ℕ :=
  (rs.map fun r => match r.call with
    | .withdraw v' t' x => if v' = v ∧ r.sender = u ∧ t' = t then x.val else 0
    | _ => 0).sum

/-- The sizes of `u`'s commitments in `t` among the executed ones. -/
def executedStake (record : Bytes32 → CommitmentRecord) (u t : Address)
    (rs : List Receipt) : ℕ :=
  (rs.map fun r => match r.call with
    | .executeCommitment h _ _ _ => (record h).stake u t
    | _ => 0).sum

/-- The sizes of `u`'s registrations with tokenIn `t`. -/
def registered (u t : Address) (rs : List Receipt) : ℕ :=
  (rs.map fun r => match r.call with
    | .registerCommitment _ tokenIn _ size _ _ _ =>
        if r.sender = u ∧ tokenIn = t then size.val else 0
    | .registerCommitmentBatch hs tokenIn _ sizes minOuts expiries _ =>
        if r.sender = u ∧ tokenIn = t then
          ((CommitmentRegistry.batchRows hs sizes minOuts expiries).map
            fun row => row.2.1.val).sum
        else 0
    | _ => 0).sum

/-- What no event shows is shown by receipts. -/
theorem tally_receipts {f : Item → ℕ} (hf : ∀ v h t x, f (.settled v h t x) = 0)
    (es : List Event) (rs : List Receipt) :
    tally f (shown es rs) = (rs.map fun r => tally f r.shows).sum := by
  have hes : ∀ e : Event, tally f e.shows = 0 := by
    intro e
    cases e with
    | vault v e => cases e <;> simp [Event.shows, hf]
    | registry e => rfl
    | gasVault e => rfl
  rw [tally_shown]
  simp [hes]

private theorem tally_batch {f : Item → ℕ} (u t : Address)
    (rows : List CommitmentRegistry.BatchRow) :
    tally f (rows.map (rowItem u t) : List Item)
      = (rows.map fun row => f (rowItem u t row)).sum := by
  simp [tally, Function.comp_def]

theorem tally_credits (es : List Event) (rs : List Receipt) :
    tally (Item.credits v u t) (shown es rs) = deposited v u t rs := by
  rw [tally_receipts fun _ _ _ _ => rfl, deposited]
  congr 2
  funext r
  cases hc : r.call <;> simp [Receipt.shows, hc, Call.shows, Item.credits]
  case registerCommitmentBatch => simp [tally_batch, rowItem, Item.credits]

theorem tally_debits (record : Bytes32 → CommitmentRecord) (es : List Event)
    (rs : List Receipt) :
    tally (Item.debits v u t record) (shown es rs)
      = withdrawn v u t rs + executedStake record u t rs := by
  rw [tally_receipts fun _ _ _ _ => rfl, withdrawn, executedStake, ← List.sum_map_add]
  congr 2
  funext r
  cases hc : r.call <;> simp [Receipt.shows, hc, Call.shows, Item.debits]
  case registerCommitmentBatch => simp [tally_batch, rowItem, Item.debits]

theorem tally_takes (es : List Event) (rs : List Receipt) :
    tally (Item.takes v u t) (shown es rs) = withdrawn v u t rs + registered u t rs := by
  rw [tally_receipts fun _ _ _ _ => rfl, withdrawn, registered, ← List.sum_map_add]
  congr 2
  funext r
  cases hc : r.call <;> simp [Receipt.shows, hc, Call.shows, Item.takes]
  case registerCommitmentBatch =>
    rw [tally_batch]
    split
    next h => simp [rowItem, Item.takes, h]
    next h => simp [rowItem, Item.takes, h]

theorem run_wired {w w' : World} (hw : Wired net v w)
    (h : (chain net).Run (KeepsWiring net v) ⟨w, []⟩ ⟨w', []⟩) :
    w'.book.Wired net v := by
  obtain ⟨m, es, rs, hp, -⟩ := run_trans (KeepsWiring.allows net v) h
  exact hp.inv (fun _ _ h hok _ => h.act hok) ⟨hw.isVault, hw.vault, hw.registry⟩

/-- Custody of each user's collateral: between any two points outside a
transaction, a claim changes by exactly the user's deposits, withdrawals
and executed commitments among the calls that returned; a free balance
falls by no more than the user's own withdrawals and registrations; and
what was executed had been pending, with the same terms. -/
theorem claim_changes {w w₁ w₂ : World} (hw : Wired net v w)
    (h₁ : (chain net).Run (KeepsWiring net v) ⟨w, []⟩ ⟨w₁, []⟩)
    (h₂ : (chain net).Run (KeepsWiring net v) ⟨w₁, []⟩ ⟨w₂, []⟩) (u t : Address) :
    ∃ rs, w₂.receipts = w₁.receipts ++ rs
      ∧ w₂.claim v u t + (withdrawn v u t rs
          + executedStake w₂.registry.commitments u t rs)
        = w₁.claim v u t + deposited v u t rs
      ∧ (w₁.vaults v).freeBalance u t
        ≤ (w₂.vaults v).freeBalance u t + (withdrawn v u t rs + registered u t rs)
      ∧ ∀ r ∈ rs, ∀ h n proof x, r.call = .executeCommitment h n proof x →
          (w₂.registry.commitments h).status = .EXECUTED
            ∧ ((w₁.registry.commitments h).status = .NONE
              ∨ (w₁.registry.commitments h).status = .PENDING)
            ∧ ((w₁.registry.commitments h).status = .PENDING →
              w₂.registry.commitments h
                = (w₁.registry.commitments h).close .EXECUTED) := by
  have hwired := run_wired hw h₁
  obtain ⟨m, es, rs, hp, -, hrec, rfl⟩ := run_trans (KeepsWiring.allows net v) h₂
  rw [zero_add] at hp
  have hclaim := claim_path (u := u) (t := t) hp hwired w₂.registry.commitments
    fun h => .refl _
  have hfree := free_path (u := u) (t := t) hp hwired
  rw [tally_credits, tally_debits] at hclaim
  rw [tally_takes] at hfree
  refine ⟨rs, hrec, hclaim, hfree, fun r hr h n proof x hcall => ?_⟩
  have hi : Item.execute h n ∈ shown es rs := by
    refine mem_shown hr ?_
    rw [Receipt.shows, hcall]
    exact Multiset.mem_singleton_self _
  obtain ⟨hex, hb⟩ := executed_path hp hi
  refine ⟨hex, hb, fun hpend => ?_⟩
  have hne : (w₁.registry.commitments h).status ≠ .NONE := by
    rw [hpend]
    decide
  have hfrozen := (evolves_path hp h).frozen hne
  rw [hex] at hfrozen
  exact hfrozen

/-- Setup, prices and a registration; then an execution and a withdrawal. -/
def sampleClaims : List ChainMove × List ChainMove :=
  (sampleSetup ++
    [call 7 (.setPriceFeed 10 30), call 7 (.setPriceFeed 11 31),
      call 8 (.registerCommitment 77 10 11 60 5 2000 .ORDER_FILL)],
    [call 8 (.executeCommitment 77 500 [] 0), .answer ⟨60, 60⟩,
      call 8 (.withdraw 3 10 40)])

/-- The worlds after the two halves. -/
def sampleWorlds : World × World :=
  let w₁ := ((chain sampleNet).play sampleClaims.1 ⟨sampleWorld, []⟩).elim sampleWorld
    Config.world
  (w₁, ((chain sampleNet).play sampleClaims.2 ⟨w₁, []⟩).elim w₁ Config.world)

theorem sample_mid : (chain sampleNet).play sampleClaims.1 ⟨sampleWorld, []⟩
    = some ⟨sampleWorlds.1, []⟩ := rfl

theorem sample_end : (chain sampleNet).play sampleClaims.2 ⟨sampleWorlds.1, []⟩
    = some ⟨sampleWorlds.2, []⟩ := rfl

theorem claim_changes_sample :
    ∃ w₁ w₂ rs, (chain sampleNet).play sampleClaims.1 ⟨sampleWorld, []⟩ = some ⟨w₁, []⟩
      ∧ (chain sampleNet).play sampleClaims.2 ⟨w₁, []⟩ = some ⟨w₂, []⟩
      ∧ w₂.receipts = w₁.receipts ++ rs
      ∧ w₂.claim 3 8 10 + (withdrawn 3 8 10 rs
          + executedStake w₂.registry.commitments 8 10 rs)
        = w₁.claim 3 8 10 + deposited 3 8 10 rs
      ∧ withdrawn 3 8 10 rs = 40
      ∧ executedStake w₂.registry.commitments 8 10 rs = 60 := by
  have hkeep₁ : ∀ s, ∀ m ∈ sampleClaims.1, KeepsWiring sampleNet 3 s m := by
    simp [sampleClaims, sampleSetup, call, KeepsWiring, Call.KeepsWiring]
  have hkeep₂ : ∀ s, ∀ m ∈ sampleClaims.2, KeepsWiring sampleNet 3 s m := by
    simp [sampleClaims, call, KeepsWiring, Call.KeepsWiring]
  obtain ⟨rs, hrs, hclaim, -⟩ := claim_changes sampleWorld_wired
    (.of_play hkeep₁ sample_mid) (.of_play hkeep₂ sample_end) 8 10
  have hcalls : rs = [⟨1000, 8, .executeCommitment 77 500 [] 0⟩,
      ⟨1000, 8, .withdraw 3 10 40⟩] := by
    refine List.append_cancel_left (hrs.symm.trans ?_)
    decide +kernel
  refine ⟨_, _, rs, sample_mid, sample_end, hrs, hclaim, ?_, ?_⟩
  · rw [hcalls]
    decide +kernel
  · rw [hcalls]
    decide +kernel

end Zstrategy.Contracts
