/-
The custody book: what the registry and the vaults are for, without their
programs. A `Book` is every commitment record, the spent nullifiers, what
each vault owes (free and locked) and what each account holds. An `Act` is
one custody event; each is atomic, although the code spreads it over two
contracts and several statements.

Opening a commitment locks its size in the vault the registry points to;
each of the three exits settles it: the status becomes terminal and the
lock is released or given back. Where the registry points to an address
that is not one of our vaults, only the registry's half of the act is in
the book. The acts `lock`, `release` and `giveBack` are those of a foreign
registry that some vault has been pointed to.

# Items

What a run of acts did is a multiset of `Item`s, so that it can be
compared with what the chain shows of it (receipts and events), in
whatever order nested calls return.
-/
import Zstrategy.Contracts.State

namespace Zstrategy.Contracts

open Lib

open Function (update)

variable (net : Net)

-- ================================================================= the book

structure Book where
  record : Bytes32 → CommitmentRecord
  spent : Bytes32 → Bool
  /-- The vault and the adapter the registry points to. -/
  vault : Address
  adapter : Address
  /-- The registry that each vault obeys. -/
  registryOf : Address → Address
  /-- vault, user, token -/
  free : Address → Address → Address → ℕ
  /-- vault, commitment hash, token -/
  locked : Address → Bytes32 → Address → ℕ
  /-- token, account -/
  held : Address → Address → ℕ

namespace Book

def setFree (v u t : Address) (x : ℕ) (b : Book) : Book :=
  { b with free := update b.free v (update2 (b.free v) u t x) }

def setLocked (v : Address) (h : Bytes32) (t : Address) (x : ℕ) (b : Book) : Book :=
  { b with locked := update b.locked v (update2 (b.locked v) h t x) }

def setRecord (h : Bytes32) (r : CommitmentRecord) (b : Book) : Book :=
  { b with record := update b.record h r }

def spend (n : Bytes32) (b : Book) : Book :=
  { b with spent := update b.spent n true }

/-- Tokens change hands; only the standard tokens are on the book. -/
def pay (t src dst : Address) (a : ℕ) (b : Book) : Book :=
  if net.standard t = true then
    let out := update2 b.held t src (b.held t src - a)
    { b with held := update2 out t dst (out t dst + a) }
  else b

/-- From a user's free balance into a lock. -/
def lock (v : Address) (h : Bytes32) (u t : Address) (a : ℕ) (b : Book) : Book :=
  (b.setFree v u t (b.free v u t - a)).setLocked v h t (b.locked v h t + a)

/-- Out of a lock and out of the vault. -/
def release (v : Address) (h : Bytes32) (t : Address) (a : ℕ) (dst : Address)
    (b : Book) : Book :=
  (b.setLocked v h t (b.locked v h t - a)).pay net t v dst a

/-- Out of a lock into a user's free balance. -/
def giveBack (v : Address) (h : Bytes32) (u t : Address) (a : ℕ) (b : Book) : Book :=
  (b.setLocked v h t (b.locked v h t - a)).setFree v u t (b.free v u t + a)

/-- The registry's call to its vault: on the book if the vault is ours. -/
def onVault (f : Address → Book → Book) (b : Book) : Book :=
  if net.isVault b.vault = true then f b.vault b else b

end Book

/-- The record after an exit. -/
def CommitmentRecord.close (r : CommitmentRecord) (s : CommitmentStatus) :
    CommitmentRecord :=
  { r with status := s }

/-- No longer pending, for good. -/
def CommitmentStatus.Terminal : CommitmentStatus → Prop
  | .EXECUTED | .CANCELLED | .EXPIRED => True
  | .NONE | .PENDING => False

instance (s : CommitmentStatus) : Decidable s.Terminal :=
  match s with
  | .EXECUTED | .CANCELLED | .EXPIRED => .isTrue trivial
  | .NONE | .PENDING => .isFalse id

-- ===================================================================== acts

/-- One custody event. The exits carry the record they settle. -/
inductive Act where
  | deposit (v u t : Address) (a : ℕ)
  | withdraw (v u t : Address) (a : ℕ)
  | lock (v : Address) (h : Bytes32) (u t : Address) (a : ℕ)
  | release (v : Address) (h : Bytes32) (t : Address) (a : ℕ) (dst : Address)
  | giveBack (v : Address) (h : Bytes32) (u t : Address) (a : ℕ)
  | register (h : Bytes32) (r : CommitmentRecord)
  | execute (h n : Bytes32) (r : CommitmentRecord) (dst : Address)
  | cancel (h n : Bytes32) (r : CommitmentRecord)
  | expire (h : Bytes32) (r : CommitmentRecord)
  | setVault (a : Address)
  | setAdapter (a : Address)
  | setVaultRegistry (v a : Address)
  | transfer (t src dst : Address) (a : ℕ)
  | mint (t dst : Address) (a : ℕ)

/-- The vault at `v` obeys a registry that is not ours. -/
def Book.Foreign (v : Address) (b : Book) : Prop :=
  net.isVault v = true ∧ b.registryOf v ≠ net.registry

/-- What the registry's own vault, if it is ours, checks. -/
def Book.Obeys (check : Address → Prop) (b : Book) : Prop :=
  net.isVault b.vault = true →
    b.registryOf b.vault = net.registry ∧ check b.vault

/-- The lock of `r` under `h` covers its size. -/
def Book.Covers (h : Bytes32) (r : CommitmentRecord) (v : Address) (b : Book) :
    Prop :=
  r.size.val ≤ b.locked v h r.tokenIn

/-- The account can pay the amount, as far as the book knows. -/
def Book.CanPay (t src : Address) (a : ℕ) (b : Book) : Prop :=
  net.standard t = true → a ≤ b.held t src

/-- `h` is pending with record `r`. -/
def Book.Pending (h : Bytes32) (r : CommitmentRecord) (b : Book) : Prop :=
  r = b.record h ∧ r.status = .PENDING

/-- When an act can happen. -/
def Act.guard : Act → Book → Prop
  | .deposit v u t a, b =>
      net.isVault v = true ∧ net.isVault u = false ∧ 0 < a ∧ b.CanPay net t u a
        ∧ b.free v u t + a < 2 ^ 256
  | .withdraw v u t a, b =>
      net.isVault v = true ∧ net.isVault u = false ∧ 0 < a ∧ a ≤ b.free v u t
        ∧ b.CanPay net t v a
  | .lock v h u t a, b =>
      b.Foreign net v ∧ a ≤ b.free v u t ∧ b.locked v h t + a < 2 ^ 256
  | .release v h t a _, b =>
      b.Foreign net v ∧ a ≤ b.locked v h t ∧ b.CanPay net t v a
  | .giveBack v h u t a, b =>
      b.Foreign net v ∧ a ≤ b.locked v h t ∧ b.free v u t + a < 2 ^ 256
  | .register h r, b =>
      (b.record h).status = .NONE ∧ r.status = .PENDING ∧ 0 < r.size.val
        ∧ b.Obeys net fun v => r.size.val ≤ b.free v r.owner r.tokenIn
  | .execute h n r dst, b =>
      b.Pending h r ∧ b.spent n = false ∧ dst = b.adapter
        ∧ b.Obeys net fun v =>
            b.Covers h r v ∧ b.CanPay net r.tokenIn v r.size.val
  | .cancel h n r, b =>
      b.Pending h r ∧ b.spent n = false ∧ b.Obeys net fun v => b.Covers h r v
  | .expire h r, b => b.Pending h r ∧ b.Obeys net fun v => b.Covers h r v
  | .setVault _, _ | .setAdapter _, _ | .setVaultRegistry _ _, _ => True
  | .transfer t src _ a, b => net.isVault src = false ∧ b.CanPay net t src a
  | .mint t _ _, _ => net.standard t = true

/-- What an act does. -/
def Act.effect : Act → Book → Book
  | .deposit v u t a, b =>
      (b.pay net t u v a).setFree v u t (b.free v u t + a)
  | .withdraw v u t a, b =>
      (b.setFree v u t (b.free v u t - a)).pay net t v u a
  | .lock v h u t a, b => b.lock v h u t a
  | .release v h t a dst, b => b.release net v h t a dst
  | .giveBack v h u t a, b => b.giveBack v h u t a
  | .register h r, b =>
      (b.setRecord h r).onVault net fun v =>
        Book.lock v h r.owner r.tokenIn r.size.val
  | .execute h n r dst, b =>
      ((b.spend n).setRecord h (r.close .EXECUTED)).onVault net fun v =>
        Book.release net v h r.tokenIn r.size.val dst
  | .cancel h n r, b =>
      ((b.spend n).setRecord h (r.close .CANCELLED)).onVault net fun v =>
        Book.giveBack v h r.owner r.tokenIn r.size.val
  | .expire h r, b =>
      (b.setRecord h (r.close .EXPIRED)).onVault net fun v =>
        Book.giveBack v h r.owner r.tokenIn r.size.val
  | .setVault a, b => { b with vault := a }
  | .setAdapter a, b => { b with adapter := a }
  | .setVaultRegistry v a, b => { b with registryOf := update b.registryOf v a }
  | .transfer t src dst a, b => b.pay net t src dst a
  | .mint t dst a, b =>
      { b with held := update2 b.held t dst (b.held t dst + a) }

-- ======================================================== what an act writes

/-- The record an act writes, and under which hash. -/
def Act.writes : Act → Option (Bytes32 × CommitmentRecord)
  | .register h r => some (h, r)
  | .execute h _ r _ => some (h, r.close .EXECUTED)
  | .cancel h _ r => some (h, r.close .CANCELLED)
  | .expire h r => some (h, r.close .EXPIRED)
  | _ => none

/-- The nullifier an act spends. -/
def Act.spends : Act → Option Bytes32
  | .execute _ n _ _ => some n
  | .cancel _ n _ => some n
  | _ => none

/-- An act without its money. -/
def Act.setting : Act → Book → Book
  | .register h r, b => b.setRecord h r
  | .execute h n r _, b => (b.spend n).setRecord h (r.close .EXECUTED)
  | .cancel h n r, b => (b.spend n).setRecord h (r.close .CANCELLED)
  | .expire h r, b => b.setRecord h (r.close .EXPIRED)
  | .setVault x, b => { b with vault := x }
  | .setAdapter x, b => { b with adapter := x }
  | .setVaultRegistry v x, b => { b with registryOf := update b.registryOf v x }
  | _, b => b

section Writes

variable {net} {b : Book} {a : Act}

/-- A field that the vault's half of an act does not touch. -/
theorem Book.onVault_field {γ : Type} (g : Book → γ) {f : Address → Book → Book}
    (hf : ∀ v b, g (f v b) = g b) : g (b.onVault net f) = g b := by
  unfold Book.onVault
  split
  case isTrue => exact hf _ _
  case isFalse => rfl

/-- A field other than `held`, through a payment. -/
theorem Book.pay_field {γ : Type} (g : Book → γ)
    (hg : ∀ (b : Book) x, g { b with held := x } = g b) (t src dst : Address)
    (x : ℕ) : g (b.pay net t src dst x) = g b := by
  unfold Book.pay
  split
  case isTrue => exact hg _ _
  case isFalse => rfl

theorem Book.onVault_eq {v : Address} (hv : net.isVault v = true) (hb : b.vault = v)
    (f : Address → Book → Book) : b.onVault net f = f v b := by
  subst hb
  exact if_pos hv

/-- A field that holds no money changes as in `setting`. -/
theorem Act.effect_field {γ : Type} (g : Book → γ)
    (hheld : ∀ (b : Book) x, g { b with held := x } = g b)
    (hfree : ∀ (b : Book) x, g { b with free := x } = g b)
    (hlocked : ∀ (b : Book) x, g { b with locked := x } = g b) :
    g (a.effect net b) = g (a.setting b) := by
  have hpay : ∀ (b : Book) t src dst x, g (b.pay net t src dst x) = g b :=
    fun b t src dst x => Book.pay_field g hheld t src dst x
  have hlock : ∀ v h u t x (b : Book), g (b.lock v h u t x) = g b :=
    fun v h u t x b => (hlocked _ _).trans (hfree _ _)
  have hback : ∀ v h u t x (b : Book), g (b.giveBack v h u t x) = g b :=
    fun v h u t x b => (hfree _ _).trans (hlocked _ _)
  have hrelease : ∀ v h t x dst (b : Book), g (b.release net v h t x dst) = g b :=
    fun v h t x dst b => (hpay _ _ _ _ _).trans (hlocked _ _)
  cases a with
  | deposit v u t x => exact (hfree _ _).trans (hpay _ _ _ _ _)
  | withdraw v u t x => exact (hpay _ _ _ _ _).trans (hfree _ _)
  | lock v h u t x => exact hlock _ _ _ _ _ _
  | release v h t x dst => exact hrelease _ _ _ _ _ _
  | giveBack v h u t x => exact hback _ _ _ _ _ _
  | register h r => exact Book.onVault_field g fun _ _ => hlock _ _ _ _ _ _
  | execute h n r dst => exact Book.onVault_field g fun _ _ => hrelease _ _ _ _ _ _
  | cancel h n r => exact Book.onVault_field g fun _ _ => hback _ _ _ _ _ _
  | expire h r => exact Book.onVault_field g fun _ _ => hback _ _ _ _ _ _
  | transfer t src dst x => exact hpay _ _ _ _ _
  | mint t dst x => exact hheld _ _
  | setVault | setAdapter | setVaultRegistry => rfl

theorem Act.effect_record (net : Net) (a : Act) (b : Book) :
    (a.effect net b).record
      = match a.writes with
        | some (h, r) => update b.record h r
        | none => b.record := by
  rw [Act.effect_field Book.record (fun _ _ => rfl) (fun _ _ => rfl) fun _ _ => rfl]
  cases a <;> rfl

theorem Act.effect_spent (net : Net) (a : Act) (b : Book) :
    (a.effect net b).spent
      = match a.spends with
        | some n => update b.spent n true
        | none => b.spent := by
  rw [Act.effect_field Book.spent (fun _ _ => rfl) (fun _ _ => rfl) fun _ _ => rfl]
  cases a <;> rfl

theorem Act.effect_vault :
    (a.effect net b).vault = (a.setting b).vault :=
  Act.effect_field Book.vault (fun _ _ => rfl) (fun _ _ => rfl) fun _ _ => rfl

theorem Act.effect_registryOf :
    (a.effect net b).registryOf = (a.setting b).registryOf :=
  Act.effect_field Book.registryOf (fun _ _ => rfl) (fun _ _ => rfl) fun _ _ => rfl

/-- An act that writes a record opens a fresh hash or closes a pending one. -/
theorem Act.writes_cases {h : Bytes32} {r : CommitmentRecord}
    (hg : a.guard net b) (hw : a.writes = some (h, r)) :
    ((b.record h).status = .NONE ∧ r.status = .PENDING ∧ 0 < r.size.val)
      ∨ ((b.record h).status = .PENDING
        ∧ ∃ st, st.Terminal ∧ r = (b.record h).close st) := by
  cases a with
  | register h' r' =>
      cases hw
      exact .inl ⟨hg.1, hg.2.1, hg.2.2.1⟩
  | execute h' n r' dst =>
      cases hw
      obtain ⟨⟨rfl, hp⟩, -⟩ := hg
      exact .inr ⟨hp, .EXECUTED, trivial, rfl⟩
  | cancel h' n r' =>
      cases hw
      obtain ⟨⟨rfl, hp⟩, -⟩ := hg
      exact .inr ⟨hp, .CANCELLED, trivial, rfl⟩
  | expire h' r' =>
      cases hw
      obtain ⟨⟨rfl, hp⟩, -⟩ := hg
      exact .inr ⟨hp, .EXPIRED, trivial, rfl⟩
  | _ => cases hw

end Writes

-- ==================================================================== items

/-- What an act leaves to be shown for it. -/
inductive Item where
  | deposit (v u t : Address) (a : ℕ)
  | withdraw (v u t : Address) (a : ℕ)
  | register (h : Bytes32) (u t : Address) (a : ℕ)
  | execute (h n : Bytes32)
  | cancel (h n : Bytes32)
  /-- A lock went down, by release or return. -/
  | settled (v : Address) (h : Bytes32) (t : Address) (a : ℕ)
  deriving DecidableEq

/-- A quantity summed over items. -/
def tally (f : Item → ℕ) (m : Multiset Item) : ℕ :=
  (m.map f).sum

section Tally

variable (f : Item → ℕ)

@[simp] theorem tally_zero : tally f 0 = 0 := rfl

@[simp] theorem tally_add (m m' : Multiset Item) :
    tally f (m + m') = tally f m + tally f m' := by
  simp [tally]

@[simp] theorem tally_cons (i : Item) (m : Multiset Item) :
    tally f (i ::ₘ m) = f i + tally f m := by
  simp [tally]

@[simp] theorem tally_singleton (i : Item) : tally f {i} = f i := by
  simp [tally]

end Tally

/-- The settlement the registry's vault shows, if it is ours. -/
def Book.settlement (h : Bytes32) (r : CommitmentRecord) (b : Book) :
    Multiset Item :=
  if net.isVault b.vault = true then
    {.settled b.vault h r.tokenIn r.size.val}
  else 0

def Act.incurs : Act → Book → Multiset Item
  | .deposit v u t a, _ => {.deposit v u t a}
  | .withdraw v u t a, _ => {.withdraw v u t a}
  | .release v h t a _, _ => {.settled v h t a}
  | .giveBack v h _ t a, _ => {.settled v h t a}
  | .register h r, _ => {.register h r.owner r.tokenIn r.size.val}
  | .execute h n r _, b => {.execute h n} + b.settlement net h r
  | .cancel h n r, b => {.cancel h n} + b.settlement net h r
  | .expire h r, b => b.settlement net h r
  | _, _ => 0

/-- The item an act is named after, besides its settlement. -/
def Act.item : Act → Option Item
  | .deposit v u t a => some (.deposit v u t a)
  | .withdraw v u t a => some (.withdraw v u t a)
  | .register h r => some (.register h r.owner r.tokenIn r.size.val)
  | .execute h n _ _ => some (.execute h n)
  | .cancel h n _ => some (.cancel h n)
  | _ => none

/-- An act leaves its own item and settlements. -/
theorem Act.mem_incurs {net : Net} {a : Act} {b : Book} {i : Item}
    (hi : i ∈ a.incurs net b) :
    a.item = some i ∨ ∃ v h t x, i = .settled v h t x := by
  have hs : ∀ h r, i ∈ b.settlement net h r → ∃ v h t x, i = .settled v h t x := by
    intro h r hi
    unfold Book.settlement at hi
    split at hi
    · exact ⟨_, _, _, _, Multiset.mem_singleton.1 hi⟩
    · exact absurd hi (Multiset.notMem_zero i)
  cases a with
  | deposit | withdraw | register =>
      exact .inl (congrArg some (Multiset.mem_singleton.1 hi).symm)
  | release | giveBack => exact .inr ⟨_, _, _, _, Multiset.mem_singleton.1 hi⟩
  | execute h n r dst =>
      rcases Multiset.mem_add.1 hi with hi | hi
      · exact .inl (congrArg some (Multiset.mem_singleton.1 hi).symm)
      · exact .inr (hs h r hi)
  | cancel h n r =>
      rcases Multiset.mem_add.1 hi with hi | hi
      · exact .inl (congrArg some (Multiset.mem_singleton.1 hi).symm)
      · exact .inr (hs h r hi)
  | expire h r => exact .inr (hs h r hi)
  | _ => exact absurd hi (Multiset.notMem_zero i)

-- ==================================================================== paths

/-- Books reached by acts that all meet `ok`, and what the acts incur. -/
inductive Book.Path (ok : Act → Prop) (b : Book) : Multiset Item → Book → Prop
  | nil : Book.Path ok b 0 b
  | snoc {m : Multiset Item} {b' : Book} (a : Act) :
      Book.Path ok b m b' → ok a → a.guard net b' →
      Book.Path ok b (m + a.incurs net b') (a.effect net b')

variable {net} {ok : Act → Prop}

theorem Book.Path.trans {b b' b'' : Book} {m m' : Multiset Item}
    (h : Book.Path net ok b m b') (h' : Book.Path net ok b' m' b'') :
    Book.Path net ok b (m + m') b'' := by
  induction h' with
  | nil => simpa using h
  | snoc a _ hok hg ih =>
      rw [← add_assoc]
      exact .snoc a ih hok hg

/-- What every act keeps holds along a path. -/
theorem Book.Path.inv {J : Book → Prop}
    (hJ : ∀ a b, J b → ok a → a.guard net b → J (a.effect net b))
    {b b' : Book} {m : Multiset Item} (h : Book.Path net ok b m b') (h₀ : J b) :
    J b' := by
  induction h with
  | nil => exact h₀
  | snoc a _ hok hg ih => exact hJ a _ ih hok hg

end Zstrategy.Contracts
