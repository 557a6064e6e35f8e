/-
Two runs of the same call on two states that differ where a stranger's
transactions may have written.

`Agree u h N` is what the call can tell of the difference: everything
outside the two shared namespaces and the vaults' books is the same, so
are the record and the lock of `h` and the nullifiers in `N`, and the free
balance of `u` has not gone down. On such states the registration of `h`
by `u` and the execution of `h` with a nullifier in `N` do on the second
state what they do on the first (`Alike`), whatever the code they call out
to does.

The proofs go along the code, by `Outcome.Sim`: a step that reads finds the
same, a step that checks passes on the second state where it passed on the
first, a step that writes leaves states that agree again, and where other
code is called it gets the same reply and may do the same things to both
states. So each small program has its lemma `…_alike`, and the calls of the
registry are put together from these. Only the free balance is compared by
`≤`, and only in one direction: the second state has at least as much, so
what could be locked on the first can be on the second.
-/
import Zstrategy.Contracts.Rules
import Zstrategy.Lib.Simulation

namespace Zstrategy.Contracts

open Lib Code

variable {net : Net} {u : Address} {h n : Bytes32} {N : Bytes32 → Prop} {s t w : World}

-- ================================================================ agreement

/-- A state without the shared namespaces, the vaults' books and the logs. -/
def World.outline (w : World) : World :=
  { w with
    registry := { w.registry with
      commitments := fun _ => .empty, nullifiers := fun _ => false }
    vaults := fun v => { w.vaults v with
      freeBalance := fun _ _ => 0, lockedBalance := fun _ _ => 0 }
    log := []
    receipts := [] }

structure Agree (u : Address) (h : Bytes32) (N : Bytes32 → Prop) (s t : World) : Prop where
  outline : t.outline = s.outline
  record : t.registry.commitments h = s.registry.commitments h
  nullifiers : ∀ n, N n → t.registry.nullifiers n = s.registry.nullifiers n
  locked : ∀ v token, (t.vaults v).lockedBalance h token = (s.vaults v).lockedBalance h token
  free : ∀ v token, (s.vaults v).freeBalance u token ≤ (t.vaults v).freeBalance u token

namespace Agree

/-- A state agrees with itself. -/
theorem refl (u : Address) (h : Bytes32) (N : Bytes32 → Prop) (w : World) :
    Agree u h N w w :=
  ⟨rfl, rfl, fun _ _ => rfl, fun _ _ => rfl, fun _ _ => le_rfl⟩

/-- Agreement adds up over the transactions of a stranger. -/
theorem trans (hst : Agree u h N s t) (htw : Agree u h N t w) : Agree u h N s w where
  outline := htw.outline.trans hst.outline
  record := htw.record.trans hst.record
  nullifiers n hn := (htw.nullifiers n hn).trans (hst.nullifiers n hn)
  locked v token := (htw.locked v token).trans (hst.locked v token)
  free v token := (hst.free v token).trans (htw.free v token)

/-- What the outline shows agrees. -/
theorem shown {α : Type} (hst : Agree u h N s t) (f : World → α)
    (hf : ∀ w : World, f w.outline = f w) : f t = f s := by
  rw [← hf t, ← hf s, hst.outline]

-- ------------------------------------------------------- writes to both states

/-- A write that the outline shows in full. -/
structure Neutral (f : World → World) : Prop where
  outline : ∀ w : World, (f w).outline = (f w.outline).outline
  commitments : ∀ w : World, (f w).registry.commitments = w.registry.commitments
  nullifiers : ∀ w : World, (f w).registry.nullifiers = w.registry.nullifiers
  locked : ∀ (w : World) v, ((f w).vaults v).lockedBalance = (w.vaults v).lockedBalance
  free : ∀ (w : World) v, ((f w).vaults v).freeBalance = (w.vaults v).freeBalance

/-- A write outside what is compared, made on both sides. -/
theorem neutral {f : World → World} (hf : Neutral f) (hst : Agree u h N s t) :
    Agree u h N (f s) (f t) where
  outline := by rw [hf.outline t, hf.outline s, hst.outline]
  record := by rw [hf.commitments, hf.commitments, hst.record]
  nullifiers n hn := by rw [hf.nullifiers, hf.nullifiers, hst.nullifiers n hn]
  locked v token := by rw [hf.locked, hf.locked, hst.locked]
  free v token := by
    rw [hf.free, hf.free]
    exact hst.free v token

/-- The logs are not compared. -/
theorem emit (hst : Agree u h N s t) (e e' : Event) :
    Agree u h N (s.emit e) (t.emit e') :=
  ⟨hst.outline, hst.record, hst.nullifiers, hst.locked, hst.free⟩

/-- The same move of tokens on both sides. -/
theorem moveToken (hst : Agree u h N s t) (token src dst : Address) (a : ℕ) :
    Agree u h N (s.moveToken token src dst a) (t.moveToken token src dst a) :=
  hst.neutral ⟨fun _ => rfl, fun _ => rfl, fun _ => rfl, fun _ _ => rfl, fun _ _ => rfl⟩

/-- The same move of ETH on both sides. -/
theorem moveEth (hst : Agree u h N s t) (src dst : Address) (a : ℕ) :
    Agree u h N (s.moveEth src dst a) (t.moveEth src dst a) :=
  hst.neutral ⟨fun _ => rfl, fun _ => rfl, fun _ => rfl, fun _ _ => rfl, fun _ _ => rfl⟩

/-- The same balance of gas on both sides. -/
theorem setGas (hst : Agree u h N s t) (a : Address) (x : ℕ) :
    Agree u h N (s.setGas a x) (t.setGas a x) :=
  hst.neutral ⟨fun _ => rfl, fun _ => rfl, fun _ => rfl, fun _ _ => rfl, fun _ _ => rfl⟩

/-- The lock of the gas vault on both sides. -/
theorem setGasEntered (hst : Agree u h N s t) (b : Bool) :
    Agree u h N (s.setGasEntered b) (t.setGasEntered b) :=
  hst.neutral ⟨fun _ => rfl, fun _ => rfl, fun _ => rfl, fun _ _ => rfl, fun _ _ => rfl⟩

/-- The lock of the registry on both sides. -/
theorem setRegistryEntered (hst : Agree u h N s t) (b : Bool) :
    Agree u h N (s.setRegistryEntered b) (t.setRegistryEntered b) :=
  hst.neutral ⟨fun _ => rfl, fun _ => rfl, fun _ => rfl, fun _ _ => rfl, fun _ _ => rfl⟩

/-- The same approval on both sides. -/
theorem approve (hst : Agree u h N s t) (self token : Address) :
    Agree u h N
      { s with routerApproved := update2 s.routerApproved self token true }
      { t with routerApproved := update2 t.routerApproved self token true } :=
  hst.neutral (f := fun w => { w with routerApproved := update2 w.routerApproved self token true })
    ⟨fun _ => rfl, fun _ => rfl, fun _ => rfl, fun _ _ => rfl, fun _ _ => rfl⟩

/-- Free balances are no part of the outline. -/
theorem outline_setFree (w : World) (v a token : Address) (x : ℕ) :
    (w.setFree v a token x).outline = w.outline := by
  unfold World.setFree World.onVault World.outline
  congr 1
  funext y
  by_cases hy : y = v
  · subst hy
    simp
  · simp [hy]

/-- Locked balances are no part of the outline. -/
theorem outline_setLocked (w : World) (v : Address) (k : Bytes32) (token : Address) (x : ℕ) :
    (w.setLocked v k token x).outline = w.outline := by
  unfold World.setLocked World.onVault World.outline
  congr 1
  funext y
  by_cases hy : y = v
  · subst hy
    simp
  · simp [hy]

/-- A free balance after a write to one. -/
theorem free_setFree (w : World) (v a token y b token' : Address) (x : ℕ) :
    ((w.setFree v a token x).vaults y).freeBalance b token'
      = if y = v ∧ b = a ∧ token' = token then x else (w.vaults y).freeBalance b token' := by
  unfold World.setFree World.onVault
  by_cases hy : y = v
  · subst hy
    simp [update2_apply]
  · simp [hy]

/-- A locked balance after a write to one. -/
theorem locked_setLocked (w : World) (v y : Address) (k k' : Bytes32)
    (token token' : Address) (x : ℕ) :
    ((w.setLocked v k token x).vaults y).lockedBalance k' token'
      = if y = v ∧ k' = k ∧ token' = token then x
        else (w.vaults y).lockedBalance k' token' := by
  unfold World.setLocked World.onVault
  by_cases hy : y = v
  · subst hy
    simp [update2_apply]
  · simp [hy]

/-- The record of `h` is written on both sides. -/
theorem setRecord (hst : Agree u h N s t) (r : CommitmentRecord) :
    Agree u h N (s.setRecord h r) (t.setRecord h r) where
  outline := hst.outline
  record := by rw [World.commitments_setRecord, World.commitments_setRecord]
  nullifiers := hst.nullifiers
  locked := hst.locked
  free := hst.free

/-- A nullifier is spent on both sides. -/
theorem spend (hst : Agree u h N s t) (n : Bytes32) :
    Agree u h N (s.spend n) (t.spend n) where
  outline := hst.outline
  record := hst.record
  nullifiers k hk := by
    show Function.update t.registry.nullifiers n true k
      = Function.update s.registry.nullifiers n true k
    by_cases hkn : k = n
    · rw [hkn, Function.update_self, Function.update_self]
    · rw [Function.update_of_ne hkn, Function.update_of_ne hkn, hst.nullifiers k hk]
  locked := hst.locked
  free := hst.free

/-- The free balance of `u` is written on both sides, no lower on the
second. -/
theorem setFree (hst : Agree u h N s t) (v token : Address) {x y : ℕ} (hxy : x ≤ y) :
    Agree u h N (s.setFree v u token x) (t.setFree v u token y) where
  outline := by rw [outline_setFree, outline_setFree, hst.outline]
  record := hst.record
  nullifiers := hst.nullifiers
  locked v' token' := by
    rw [World.lockedBalance_setFree, World.lockedBalance_setFree, hst.locked]
  free v' token' := by
    rw [free_setFree, free_setFree]
    split
    · exact hxy
    · exact hst.free v' token'

/-- The lock of `h` is written on both sides. -/
theorem setLocked (hst : Agree u h N s t) (v token : Address) (x : ℕ) :
    Agree u h N (s.setLocked v h token x) (t.setLocked v h token x) where
  outline := by rw [outline_setLocked, outline_setLocked, hst.outline]
  record := hst.record
  nullifiers := hst.nullifiers
  locked v' token' := by
    rw [locked_setLocked, locked_setLocked, hst.locked]
  free v' token' := by
    rw [World.freeBalance_setLocked, World.freeBalance_setLocked]
    exact hst.free v' token'

-- ------------------------------------------------- writes to the second state

/-- An event on the second side only. -/
theorem note (hst : Agree u h N s t) (e : Event) : Agree u h N s (t.emit e) :=
  ⟨hst.outline, hst.record, hst.nullifiers, hst.locked, hst.free⟩

/-- The stranger writes the record of another commitment. -/
theorem setRecord_right (hst : Agree u h N s t) {k : Bytes32} (hk : k ≠ h)
    (r : CommitmentRecord) : Agree u h N s (t.setRecord k r) where
  outline := hst.outline
  record := by
    show Function.update t.registry.commitments k r h = _
    rw [Function.update_of_ne (Ne.symm hk), hst.record]
  nullifiers := hst.nullifiers
  locked := hst.locked
  free := hst.free

/-- The stranger spends a nullifier that `u` does not use. -/
theorem spend_right (hst : Agree u h N s t) (hn : ¬N n) : Agree u h N s (t.spend n) where
  outline := hst.outline
  record := hst.record
  nullifiers k hk := by
    show Function.update t.registry.nullifiers n true k = _
    have hkn : k ≠ n := by
      intro heq
      exact hn (heq ▸ hk)
    rw [Function.update_of_ne hkn, hst.nullifiers k hk]
  locked := hst.locked
  free := hst.free

/-- A free balance of somebody else changes, or one goes up. -/
theorem setFree_right (hst : Agree u h N s t) (v a token : Address) {x : ℕ}
    (hx : a = u → (t.vaults v).freeBalance u token ≤ x) :
    Agree u h N s (t.setFree v a token x) where
  outline := by rw [outline_setFree, hst.outline]
  record := hst.record
  nullifiers := hst.nullifiers
  locked v' token' := by rw [World.lockedBalance_setFree, hst.locked]
  free v' token' := by
    rw [free_setFree]
    split
    next heq =>
      obtain ⟨rfl, rfl, rfl⟩ := heq
      exact (hst.free v' token').trans (hx rfl)
    next => exact hst.free v' token'

/-- The stranger writes the lock of another commitment. -/
theorem setLocked_right (hst : Agree u h N s t) {k : Bytes32} (hk : k ≠ h)
    (v token : Address) (x : ℕ) : Agree u h N s (t.setLocked v k token x) where
  outline := by rw [outline_setLocked, hst.outline]
  record := hst.record
  nullifiers := hst.nullifiers
  locked v' token' := by
    rw [locked_setLocked, if_neg (fun heq => hk heq.2.1.symm), hst.locked]
  free v' token' := by
    rw [World.freeBalance_setLocked]
    exact hst.free v' token'

end Agree

-- ============================================================= the same call

/-- Both runs come back in agreement. -/
abbrev Agrees (u : Address) (h : Bytes32) (N : Bytes32 → Prop) :
    Unit → World → Unit → World → Prop :=
  fun _ s _ t => Agree u h N s t

/-- The second run of a call does what the first does. -/
abbrev Alike (u : Address) (h : Bytes32) (N : Bytes32 → Prop) (c : Contract Unit) (s t : World) :
    Prop :=
  c.Sim (Agree u h N) (Agrees u h N) c s t

/-- One after the other. -/
theorem Alike.then {c : Contract Unit} {k : Unit → Contract Unit} (hc : Alike u h N c s t)
    (hk : ∀ s t, Agree u h N s t → Alike u h N (k ()) s t) : Alike u h N (c >>= k) s t :=
  .bind hc fun _ s _ t hst => hk s t hst

section Tokens

variable {token src dst : Address} {a : U256}

/-- A standard token pays on both sides: no token balance differs. -/
theorem standardMove_alike (hst : Agree u h N s t) :
    Alike u h N (standardMove token src dst a) s t := by
  unfold standardMove
  refine .read ?_
  have hext : t.ext = s.ext := hst.shown World.ext fun _ => rfl
  have hbal : t.balances = s.balances := hst.shown World.balances fun _ => rfl
  refine .require (by rw [hext]; exact id) fun _ => ?_
  refine .require (by rw [hbal]; exact id) fun _ => ?_
  exact hst.moveToken token src dst a.val

/-- So does any token, or it is asked on both sides. -/
theorem safeTransfer_alike {self : Address} (hst : Agree u h N s t) :
    Alike u h N (safeTransfer net self token dst a) s t := by
  unfold safeTransfer
  refine .ite Iff.rfl (fun _ => standardMove_alike hst) fun _ => ?_
  exact .ask rfl hst fun s' t' x hst' => hst'

/-- An allowance of the router, on both sides. -/
theorem forceApprove_alike {spender : Address} (hst : Agree u h N s t) :
    Alike u h N (forceApprove net token spender) s t := by
  unfold forceApprove
  refine .ite Iff.rfl (fun _ => hst) fun _ => ?_
  exact .ask rfl hst fun s' t' x hst' => hst'

end Tokens

-- ---------------------------------------------------------------- the vault

namespace CollateralVault

variable {v token dst : Address} {a : U256}

/-- A vault has one registry on both sides. -/
theorem onlyRegistry_alike {sender : Address} (hst : Agree u h N s t) :
    Alike u h N (onlyRegistry sender v) s t := by
  have hreg : (t.vaults v).registry = (s.vaults v).registry :=
    hst.shown (fun w => (w.vaults v).registry) fun _ => rfl
  exact .read (.guard (by rw [hreg]; exact id) hst)

/-- What `u` can pay on the first side he can pay on the second. -/
theorem subFree_alike (hst : Agree u h N s t) : Alike u h N (subFree v u token a) s t := by
  unfold subFree
  refine .read (.ofExcept ?_)
  intro x hx
  obtain ⟨rfl, hle⟩ := checkedSub_eq_ok.1 hx
  have hfree := hst.free v token
  refine ⟨_, checkedSub_eq_ok.2 ⟨rfl, hle.trans hfree⟩, ?_⟩
  exact hst.setFree v token (Nat.sub_le_sub_right hfree a.val)

/-- The lock of `h` grows on both sides. -/
theorem addLocked_alike (hst : Agree u h N s t) : Alike u h N (addLocked v h token a) s t := by
  unfold addLocked
  refine .read (.ofExcept ?_)
  intro x hx
  exact ⟨x, by rw [hst.locked]; exact hx, hst.setLocked v token x⟩

/-- It is taken on both sides. -/
theorem subLocked_alike (hst : Agree u h N s t) : Alike u h N (subLocked v h token a) s t := by
  unfold subLocked
  refine .read (.ofExcept ?_)
  intro x hx
  exact ⟨x, by rw [hst.locked]; exact hx, hst.setLocked v token x⟩

/-- The owner's lock: the free balance it needs has not gone down. -/
theorem lockCollateral_alike {sender : Address} (hst : Agree u h N s t) :
    Alike u h N (lockCollateral sender v h u token a) s t := by
  unfold lockCollateral
  refine (onlyRegistry_alike hst).then fun s t hst => .read (.require ?_ fun _ => ?_)
  · exact fun hle => hle.trans (hst.free v token)
  · refine (subFree_alike hst).then fun s t hst => ?_
    exact (addLocked_alike hst).then fun s t hst => hst.emit _ _

/-- The vault pays out the lock of `h`. -/
theorem releaseForExecution_alike {sender : Address} (hst : Agree u h N s t) :
    Alike u h N (releaseForExecution net sender v h token a dst) s t := by
  unfold releaseForExecution
  refine (onlyRegistry_alike hst).then fun s t hst => .read (.require ?_ fun _ => ?_)
  · rw [hst.locked]
    exact id
  · refine (subLocked_alike hst).then fun s t hst => ?_
    exact (safeTransfer_alike hst).then fun s t hst => hst.emit _ _

end CollateralVault

-- ------------------------------------------------------------- the gas vault

namespace GasVault

/-- The gas vault is the same on both sides. -/
theorem gasVault_eq (hst : Agree u h N s t) : t.gasVault = s.gasVault :=
  hst.shown World.gasVault fun _ => rfl

/-- A deposit of gas. -/
theorem credit_alike {sender : Address} {value : ℕ} (hst : Agree u h N s t) :
    Alike u h N (credit sender value) s t := by
  unfold credit addBalance
  refine .require id fun _ => Alike.then (.read (.ofExcept ?_)) fun s t hst => hst.emit _ _
  intro x hx
  exact ⟨x, by rw [gasVault_eq hst]; exact hx, hst.setGas sender x⟩

/-- ETH is sent, and the receiver may do the same on both sides. -/
theorem sendValue_alike {dst : Address} {x : ℕ} {e : String} (hst : Agree u h N s t) :
    Alike u h N (sendValue net dst x e) s t := by
  unfold sendValue
  have heth : t.eth = s.eth := hst.shown World.eth fun _ => rfl
  refine .read (.require (by rw [heth]; exact id) fun _ => .modify ?_)
  have hmoved := hst.moveEth net.gasVault dst x
  exact .ite Iff.rfl (fun _ => credit_alike hmoved) fun _ =>
    .ask rfl hmoved fun s' t' x hst' => hst'

/-- The gas vault's lock around two bodies that are alike. -/
theorem nonReentrant_alike {body : Contract Unit} (hst : Agree u h N s t)
    (hbody : ∀ s t, Agree u h N s t → Alike u h N body s t) :
    Alike u h N (nonReentrant body) s t := by
  unfold nonReentrant
  refine .read (.require (by rw [gasVault_eq hst]; exact id) fun _ => .modify ?_)
  exact (hbody _ _ (hst.setGasEntered true)).then fun s t hst => hst.setGasEntered false

/-- The fee of an execution. -/
theorem debit_alike {sender user keeper : Address} {x : ℕ} {k : Bytes32}
    (hst : Agree u h N s t) : Alike u h N (debit net sender user keeper x k) s t := by
  unfold debit onlyRegistry subBalance
  refine Alike.then (.read (.guard (by rw [gasVault_eq hst]; exact id) hst))
    fun s t hst => nonReentrant_alike hst fun s t hst => ?_
  refine .read (.require (by rw [gasVault_eq hst]; exact id) fun _ => ?_)
  refine Alike.then (.read (.ofExcept ?_)) fun s t hst => ?_
  · intro y hy
    exact ⟨y, by rw [gasVault_eq hst]; exact hy, hst.setGas user y⟩
  · exact (sendValue_alike hst).then fun s t hst => hst.emit _ _

end GasVault

-- -------------------------------------------------------------- the registry

/-- Both runs return the same value, in agreement. -/
abbrev Returns {α : Type} (u : Address) (h : Bytes32) (N : Bytes32 → Prop) :
    α → World → α → World → Prop :=
  fun x s y t => y = x ∧ Agree u h N s t

/-- The swap: the router is asked the same on both sides. -/
theorem UniswapV3Adapter.swap_alike {x tIn tOut r : Address} {a : AdapterParams}
    {amountIn minOut : U256} (hst : Agree u h N s t) :
    (swap net x a tIn tOut amountIn minOut r).Sim (Agree u h N) (Returns u h N)
      (swap net x a tIn tOut amountIn minOut r) s t := by
  have happ : t.routerApproved = s.routerApproved := hst.shown World.routerApproved fun _ => rfl
  unfold swap
  refine .read (.ite (by rw [happ]) (fun _ => ?_) fun _ => ?_)
  · refine .bind (forceApprove_alike hst) fun _ s t _ hst => .modify ?_
    exact .ask rfl (hst.approve x tIn) fun s' t' y hst' => ⟨rfl, hst'⟩
  · exact .ask rfl hst fun s' t' y hst' => ⟨rfl, hst'⟩

namespace CommitmentRegistry

/-- The registry's lock around two bodies that are alike. -/
theorem nonReentrant_alike {body : Contract Unit} (hst : Agree u h N s t)
    (hbody : ∀ s t, Agree u h N s t → Alike u h N body s t) :
    Alike u h N (nonReentrant body) s t := by
  have hentered : t.registry.entered = s.registry.entered :=
    hst.shown (fun w => w.registry.entered) fun _ => rfl
  unfold nonReentrant
  refine .read (.require (by rw [hentered]; exact id) fun _ => .modify ?_)
  exact (hbody _ _ (hst.setRegistryEntered true)).then fun s t hst =>
    hst.setRegistryEntered false

/-- The registry is paused on both sides or on neither. -/
theorem whenNotPaused_alike (hst : Agree u h N s t) : Alike u h N whenNotPaused s t := by
  have hpaused : t.registry.paused = s.registry.paused :=
    hst.shown (fun w => w.registry.paused) fun _ => rfl
  exact .read (.guard (by rw [hpaused]; exact id) hst)

/-- The registry works with one vault on both sides. -/
theorem vault_eq (hst : Agree u h N s t) : t.registry.vault = s.registry.vault :=
  hst.shown (fun w => w.registry.vault) fun _ => rfl

/-- The registry locks the stake of `h`. -/
theorem vaultLock_alike {token : Address} {a : U256} (hst : Agree u h N s t) :
    Alike u h N (vaultLock net h u token a) s t := by
  unfold vaultLock
  refine .read ?_
  rw [vault_eq hst]
  refine .ite Iff.rfl (fun _ => CollateralVault.lockCollateral_alike hst) fun _ => ?_
  exact .ask rfl hst fun s' t' x hst' => hst'

/-- It releases the stake of `h`. -/
theorem vaultRelease_alike {token dst : Address} {a : U256} (hst : Agree u h N s t) :
    Alike u h N (vaultRelease net h token a dst) s t := by
  unfold vaultRelease
  refine .read ?_
  rw [vault_eq hst]
  refine .ite Iff.rfl (fun _ => CollateralVault.releaseForExecution_alike hst) fun _ => ?_
  exact .ask rfl hst fun s' t' x hst' => hst'

/-- It has the stake swapped. -/
theorem adapterSwap_alike {tIn tOut r : Address} {x y : U256} (hst : Agree u h N s t) :
    (adapterSwap net tIn tOut x y r).Sim (Agree u h N) (Returns u h N)
      (adapterSwap net tIn tOut x y r) s t := by
  have hadapter : t.registry.dexAdapter = s.registry.dexAdapter :=
    hst.shown (fun w => w.registry.dexAdapter) fun _ => rfl
  unfold adapterSwap
  refine .read ?_
  rw [hadapter]
  cases net.adapter s.registry.dexAdapter with
  | some a => exact UniswapV3Adapter.swap_alike hst
  | none => exact .ask rfl hst fun s' t' z hst' => ⟨rfl, hst'⟩

/-- It charges the owner. -/
theorem debitGas_alike {m : Msg} {owner : Address} {k : Bytes32} (hst : Agree u h N s t) :
    Alike u h N (debitGas net m owner k) s t := by
  have hvault : t.registry.gasVault = s.registry.gasVault :=
    hst.shown (fun w => w.registry.gasVault) fun _ => rfl
  unfold debitGas gasVaultDebit
  refine .ite Iff.rfl (fun _ => hst) fun _ => ?_
  refine .ofExcept fun x hx => ⟨x, hx, .ofExcept fun y hy => ⟨y, hy, .read ?_⟩⟩
  rw [hvault]
  refine .ite Iff.rfl (fun _ => GasVault.debit_alike hst) fun _ => ?_
  exact .ask rfl hst fun s' t' z hst' => hst'

/-- The registration of `h` by `u`. -/
theorem registerCommitment_alike {m : Msg} {tIn tOut : Address} {size minOut : U256}
    {expiry : UInt64} {kind : CommitmentKind} (hst : Agree m.sender h N s t) :
    Alike m.sender h N (registerCommitment net m h tIn tOut size minOut expiry kind) s t := by
  unfold registerCommitment
  refine nonReentrant_alike hst fun s t hst => ?_
  refine (whenNotPaused_alike hst).then fun s t hst => .read ?_
  have htime : t.timestamp = s.timestamp := hst.shown World.timestamp fun _ => rfl
  have hver : t.registry.verifiers = s.registry.verifiers :=
    hst.shown (fun w => w.registry.verifiers) fun _ => rfl
  rw [htime, hver, hst.record]
  refine .require id fun _ => .require id fun _ => .require id fun _ => .require id fun _ =>
    .require id fun _ => .require id fun _ => .require id fun _ => .require id fun _ => ?_
  unfold openCommitment
  refine Alike.then (hst.setRecord _) fun s t hst => ?_
  exact (vaultLock_alike hst).then fun s t hst => hst.emit _ _

/-- The checks of an execution of `h` with a nullifier in `N` read nothing
on which the sides differ. -/
theorem authorise_alike {proof : List UInt8} {x : UInt64} (hn : N n) (hst : Agree u h N s t) :
    (authorise h n proof x).Sim (Agree u h N) (Returns u h N) (authorise h n proof x) s t := by
  have htime : t.timestamp = s.timestamp := hst.shown World.timestamp fun _ => rfl
  have hver : t.registry.verifiers = s.registry.verifiers :=
    hst.shown (fun w => w.registry.verifiers) fun _ => rfl
  have hext : t.ext = s.ext := hst.shown World.ext fun _ => rfl
  have href : ∀ c, fillReference t c x = fillReference s c x := fun c =>
    hst.shown (fun w => fillReference w c x) fun _ => rfl
  unfold authorise
  refine .read ?_
  rw [htime, hver, hext, hst.record, hst.nullifiers n hn]
  refine .require id fun _ => .require id fun _ => .require id fun _ => .require id fun _ => ?_
  exact .ofExcept fun y hy => ⟨y, (href _).trans hy, .require id fun _ => ⟨rfl, hst⟩⟩

/-- The execution of `h` with `n`. -/
theorem executeCommitment_alike {m : Msg} {proof : List UInt8} {x : UInt64} (hn : N n)
    (hst : Agree u h N s t) :
    Alike u h N (executeCommitment net m h n proof x) s t := by
  unfold executeCommitment
  refine nonReentrant_alike hst fun s t hst => ?_
  refine (whenNotPaused_alike hst).then fun s t hst => ?_
  refine .bind (authorise_alike hn hst) fun y s y' t hy => ?_
  obtain ⟨rfl, hst⟩ := hy
  refine Alike.then (hst.spend n) fun s t hst => ?_
  have hstatus : Alike u h N (setStatus h .EXECUTED) s t := by
    refine .read ?_
    rw [hst.record]
    exact hst.setRecord _
  refine hstatus.then fun s t hst => .read ?_
  have hadapter : t.registry.dexAdapter = s.registry.dexAdapter :=
    hst.shown (fun w => w.registry.dexAdapter) fun _ => rfl
  simp only [hadapter, hst.record]
  refine (vaultRelease_alike hst).then fun s t hst => .read ?_
  simp only [hst.record]
  refine .bind (adapterSwap_alike hst) fun z s z' t hz => ?_
  obtain ⟨rfl, hst⟩ := hz
  refine .read ?_
  simp only [hst.record]
  exact (debitGas_alike hst).then fun s t hst => .read (hst.emit _ _)

end CommitmentRegistry

end Zstrategy.Contracts
