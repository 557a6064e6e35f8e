/-
The gas book: what the gas vault is for, without its program. A `GasBook`
is what each user has prepaid, where the ETH is, and the commitment
records; a `GasAct` is one event on it. ETH and balance move in one act,
although the code moves them one after the other.

An execution is two acts: the record is closed first, and later, after the
swap, the execution is settled, by a debit or, when the owner executed, by
nothing. In between the book is open to everybody, so the items say which
executions are still to be settled.

# Once for each commitment

An item says which execution was started and which was settled. `Fair`
collects what makes the debits just: a debit belongs to an execution, by its
receiver, of the payer's own commitment; a commitment is debited for once at
most, and never if its owner executed it. It follows from what the items
leave outstanding (`Balanced`) and from a record that is executed staying
so.
-/
import Zstrategy.Custody.Book
import Zstrategy.Lib.Ledger

namespace Zstrategy.Contracts

open Lib

open Function (update)

variable (net : Net) (free : Prop)

-- ================================================================= the book

structure GasBook where
  /-- `balanceOf`. -/
  balance : Address → ℕ
  eth : Address → ℕ
  record : Bytes32 → CommitmentRecord

namespace GasBook

def setBalance (u : Address) (x : ℕ) (b : GasBook) : GasBook :=
  { b with balance := update b.balance u x }

def moveEth (src dst : Address) (x : ℕ) (b : GasBook) : GasBook :=
  let out := update b.eth src (b.eth src - x)
  { b with eth := update out dst (out dst + x) }

def setRecord (h : Bytes32) (r : CommitmentRecord) (b : GasBook) : GasBook :=
  { b with record := update b.record h r }

/-- The vault can pay back what was prepaid. -/
def Solvent (b : GasBook) : Prop :=
  ∑ u, b.balance u ≤ b.eth net.gasVault

/-- It holds nothing else. -/
def Exact (b : GasBook) : Prop :=
  ∑ u, b.balance u = b.eth net.gasVault

end GasBook

-- ===================================================================== acts

inductive GasAct where
  | deposit (u : Address) (x : ℕ)
  | withdraw (u : Address) (x : ℕ)
  | register (h : Bytes32) (r : CommitmentRecord)
  /-- Cancelled or expired. -/
  | close (h : Bytes32) (st : CommitmentStatus)
  | execute (h : Bytes32) (k : Address)
  /-- `u` pays for the execution by `k`. -/
  | debit (u k : Address) (x : ℕ) (h : Bytes32)
  /-- The owner `k` executed; nobody pays. -/
  | waive (k : Address) (h : Bytes32)
  /-- ETH that the vault's code does not move; `free` if it may go to the
  vault. -/
  | pay (src dst : Address) (x : ℕ)

/-- `h` is executed and belongs to `u`. -/
def GasBook.Executed (h : Bytes32) (u : Address) (b : GasBook) : Prop :=
  (b.record h).status = .EXECUTED ∧ (b.record h).owner = u

def GasAct.guard : GasAct → GasBook → Prop
  | .deposit u x, b => u ≠ net.gasVault ∧ 0 < x ∧ x ≤ b.eth u
  | .withdraw u x, b =>
      u ≠ net.gasVault ∧ 0 < x ∧ x ≤ b.balance u ∧ x ≤ b.eth net.gasVault
  | .register h r, b => (b.record h).status = .NONE ∧ r.status = .PENDING
  | .close h st, b => (b.record h).status = .PENDING ∧ (st = .CANCELLED ∨ st = .EXPIRED)
  | .execute h _, b => (b.record h).status = .PENDING
  | .debit u k x h, b =>
      k ≠ net.gasVault ∧ k ≠ u ∧ b.Executed h u ∧ x ≤ b.balance u
        ∧ x ≤ b.eth net.gasVault
  | .waive k h, b => b.Executed h k
  | .pay src dst x, b =>
      src ≠ net.gasVault ∧ x ≤ b.eth src ∧ (dst = net.gasVault → 0 < x → free)

def GasAct.effect : GasAct → GasBook → GasBook
  | .deposit u x, b =>
      (b.moveEth u net.gasVault x).setBalance u (b.balance u + x)
  | .withdraw u x, b =>
      (b.setBalance u (b.balance u - x)).moveEth net.gasVault u x
  | .register h r, b => b.setRecord h r
  | .close h st, b => b.setRecord h ((b.record h).close st)
  | .execute h _, b => b.setRecord h ((b.record h).close .EXECUTED)
  | .debit u k x _, b =>
      (b.setBalance u (b.balance u - x)).moveEth net.gasVault k x
  | .waive _ _, b => b
  | .pay src dst x, b => b.moveEth src dst x

/-- What an act leaves to be shown for it. -/
inductive GasItem where
  | deposit (u : Address)
  | withdraw (u : Address) (x : ℕ)
  | executed (h : Bytes32) (k : Address)
  | settled (h : Bytes32) (k : Address)
  deriving DecidableEq

def GasAct.incurs : GasAct → Multiset GasItem
  | .deposit u _ => {.deposit u}
  | .withdraw u x => {.withdraw u x}
  | .execute h k => {.executed h k}
  | .debit _ k _ h => {.settled h k}
  | .waive k h => {.settled h k}
  | _ => 0

def gasLedger : Ledger GasBook GasAct GasItem :=
  ⟨GasAct.guard net free, GasAct.effect net, GasAct.incurs⟩

variable {net} {free} {b b' : GasBook} {a : GasAct} {as : List GasAct}

-- ================================================================= solvency

@[simp] theorem GasBook.balance_moveEth (src dst : Address) (x : ℕ) :
    (b.moveEth src dst x).balance = b.balance := rfl

@[simp] theorem GasBook.eth_setBalance (u : Address) (x : ℕ) :
    (b.setBalance u x).eth = b.eth := rfl

@[simp] theorem GasBook.balance_setBalance (u : Address) (x : ℕ) :
    (b.setBalance u x).balance = update b.balance u x := rfl

theorem GasBook.eth_moveEth_in {src dst : Address} (h : src ≠ dst) (x : ℕ) :
    (b.moveEth src dst x).eth dst = b.eth dst + x := by
  simp [GasBook.moveEth, Function.update_of_ne h.symm]

theorem GasBook.eth_moveEth_out {src dst : Address} (h : src ≠ dst) (x : ℕ) :
    (b.moveEth src dst x).eth src = b.eth src - x := by
  simp [GasBook.moveEth, Function.update_of_ne h]

theorem GasBook.eth_moveEth_other {src dst c : Address} (hs : c ≠ src) (hd : c ≠ dst) (x : ℕ) :
    (b.moveEth src dst x).eth c = b.eth c := by
  simp [GasBook.moveEth, Function.update_of_ne hs, Function.update_of_ne hd]

/-- What an act changes in the two sides of solvency. -/
theorem GasAct.totals (hg : a.guard net free b) :
    ∃ plus minus forced,
      ∑ u, (a.effect net b).balance u + minus = ∑ u, b.balance u + plus
        ∧ (a.effect net b).eth net.gasVault + minus
            = b.eth net.gasVault + plus + forced
        ∧ (¬free → forced = 0) := by
  cases a with
  | deposit u x =>
      obtain ⟨hu, -, -⟩ := hg
      refine ⟨x, 0, 0, ?_, ?_, fun _ => rfl⟩
      · have hsum := sum_update b.balance u (b.balance u + x)
        simp only [GasAct.effect, GasBook.balance_setBalance, GasBook.balance_moveEth]
        omega
      · simp only [GasAct.effect, GasBook.eth_setBalance, GasBook.eth_moveEth_in hu]
  | withdraw u x =>
      obtain ⟨hu, -, hle, heth⟩ := hg
      refine ⟨0, x, 0, ?_, ?_, fun _ => rfl⟩
      · have hsum := sum_update b.balance u (b.balance u - x)
        simp only [GasAct.effect, GasBook.balance_moveEth, GasBook.balance_setBalance]
        omega
      · simp only [GasAct.effect, GasBook.eth_moveEth_out hu.symm, GasBook.eth_setBalance]
        omega
  | debit u k x h =>
      obtain ⟨hk, -, -, hle, heth⟩ := hg
      refine ⟨0, x, 0, ?_, ?_, fun _ => rfl⟩
      · have hsum := sum_update b.balance u (b.balance u - x)
        simp only [GasAct.effect, GasBook.balance_moveEth, GasBook.balance_setBalance]
        omega
      · simp only [GasAct.effect, GasBook.eth_moveEth_out hk.symm, GasBook.eth_setBalance]
        omega
  | pay src dst x =>
      obtain ⟨hsrc, -, hfree⟩ := hg
      by_cases hdst : net.gasVault = dst
      · refine ⟨0, 0, x, rfl, ?_, fun hnot => ?_⟩
        · rw [hdst] at hsrc ⊢
          exact GasBook.eth_moveEth_in hsrc x
        · by_contra hx
          exact hnot (hfree hdst.symm (Nat.pos_of_ne_zero hx))
      · exact ⟨0, 0, 0, rfl, GasBook.eth_moveEth_other hsrc.symm hdst x, fun _ => rfl⟩
  | _ => exact ⟨0, 0, 0, rfl, rfl, fun _ => rfl⟩

theorem GasAct.solvent (hg : a.guard net free b) (hb : b.Solvent net) :
    (a.effect net b).Solvent net := by
  obtain ⟨plus, minus, forced, hsum, heth, -⟩ := GasAct.totals hg
  unfold GasBook.Solvent at hb ⊢
  omega

theorem GasAct.exact (hg : a.guard net False b) (hb : b.Exact net) :
    (a.effect net b).Exact net := by
  obtain ⟨plus, minus, forced, hsum, heth, hforced⟩ := GasAct.totals hg
  have hzero := hforced id
  unfold GasBook.Exact at hb ⊢
  omega

/-- No act makes the vault insolvent. -/
theorem stays_solvent (hp : (gasLedger net free).Path b as b') (hb : b.Solvent net) :
    b'.Solvent net := by
  apply hp.inv (J := fun b => b.Solvent net) _ hb
  intro a b hb hg
  exact GasAct.solvent hg hb

/-- Nothing but what is forced in is on top. -/
theorem stays_exact (hp : (gasLedger net False).Path b as b') (hb : b.Exact net) :
    b'.Exact net := by
  apply hp.inv (J := fun b => b.Exact net) _ hb
  intro a b hb hg
  exact GasAct.exact hg hb

/-- A balance goes down by a withdrawal of its owner and by a debit, by
what the receiver gets. -/
theorem GasAct.lowered {u : Address} (hg : a.guard net free b)
    (hlow : (a.effect net b).balance u < b.balance u) :
    ∃ k x, (a = .withdraw u x ∧ k = u ∨ ∃ h, a = .debit u k x h)
      ∧ (a.effect net b).balance u + x = b.balance u
      ∧ (a.effect net b).eth k = b.eth k + x := by
  cases a with
  | deposit v x =>
      by_cases hv : u = v
      · rw [hv] at hlow
        simp [GasAct.effect] at hlow
      · simp [GasAct.effect, Function.update_of_ne hv] at hlow
  | withdraw v x =>
      obtain ⟨hgas, -, hle, -⟩ := hg
      by_cases hv : u = v
      · rw [← hv] at hle hgas ⊢
        refine ⟨u, x, .inl ⟨rfl, rfl⟩, ?_, GasBook.eth_moveEth_in hgas.symm x⟩
        simp only [GasAct.effect, GasBook.balance_moveEth, GasBook.balance_setBalance,
          Function.update_self]
        omega
      · simp [GasAct.effect, Function.update_of_ne hv] at hlow
  | debit v k x h =>
      obtain ⟨hgas, -, -, hle, -⟩ := hg
      by_cases hv : u = v
      · rw [← hv] at hle ⊢
        refine ⟨k, x, .inr ⟨h, rfl⟩, ?_, GasBook.eth_moveEth_in hgas.symm x⟩
        simp only [GasAct.effect, GasBook.balance_moveEth, GasBook.balance_setBalance,
          Function.update_self]
        omega
      · simp [GasAct.effect, Function.update_of_ne hv] at hlow
  | _ => exact absurd hlow (lt_irrefl _)

-- ============================================================== executions

/-- An execution keeps the owner. -/
theorem GasAct.execute_executed (net : Net) (b : GasBook) (h : Bytes32) (k : Address) :
    ((GasAct.execute h k).effect net b).Executed h (b.record h).owner := by
  have hrec : ((GasAct.execute h k).effect net b).record h = (b.record h).close .EXECUTED :=
    Function.update_self h _ _
  unfold GasBook.Executed
  rw [hrec]
  exact ⟨rfl, rfl⟩

/-- An executed record stays as it is. -/
theorem GasAct.executed_stays {h : Bytes32} (hg : a.guard net free b)
    (hx : (b.record h).status = .EXECUTED) :
    (a.effect net b).record h = b.record h := by
  have hother : ∀ {h' : Bytes32} {st : CommitmentStatus} {r : CommitmentRecord},
      (b.record h').status = st → st ≠ .EXECUTED →
      (b.setRecord h' r).record h = b.record h := by
    intro h' st r hst hne
    have hh : h ≠ h' := by
      intro hh
      rw [hh, hst] at hx
      exact hne hx
    exact Function.update_of_ne hh _ _
  cases a with
  | register h' r => exact hother hg.1 (by decide)
  | close h' st => exact hother hg.1 (by decide)
  | execute h' k => exact hother hg (by decide)
  | _ => rfl

theorem stays_executed {h : Bytes32} {u : Address} (hp : (gasLedger net free).Path b as b')
    (hx : b.Executed h u) : b'.Executed h u := by
  apply hp.inv (J := fun b => b.Executed h u) _ hx
  intro a b hx hg
  have hstays : ((gasLedger net free).effect a b).record h = b.record h :=
    GasAct.executed_stays hg hx.1
  unfold GasBook.Executed at hx ⊢
  rw [hstays]
  exact hx

/-- The execution an act starts. -/
def GasAct.executes : GasAct → Option (Bytes32 × Address)
  | .execute h k => some (h, k)
  | _ => none

/-- The execution an act ends. -/
def GasAct.settles : GasAct → Option (Bytes32 × Address)
  | .debit _ k _ h => some (h, k)
  | .waive k h => some (h, k)
  | _ => none

/-- The hash whose execution somebody is debited for. -/
def GasAct.debits : GasAct → Option Bytes32
  | .debit _ _ _ h => some h
  | _ => none

def GasItem.executes : GasItem → Option (Bytes32 × Address)
  | .executed h k => some (h, k)
  | _ => none

def GasItem.settles : GasItem → Option (Bytes32 × Address)
  | .settled h k => some (h, k)
  | _ => none

/-- No more executions are settled than were started. -/
def Balanced (m : Multiset GasItem) : Prop :=
  m.filterMap GasItem.settles ≤ m.filterMap GasItem.executes

theorem Balanced.add {m m' : Multiset GasItem} (h : Balanced m) (h' : Balanced m') :
    Balanced (m + m') := by
  unfold Balanced
  rw [Multiset.filterMap_add, Multiset.filterMap_add]
  exact add_le_add h h'

/-- An item of no execution. -/
theorem balanced_singleton {i : GasItem} (hi : i.settles = none) : Balanced {i} := by
  unfold Balanced
  rw [← Multiset.cons_zero, Multiset.filterMap_cons_none _ _ hi, Multiset.filterMap_zero]
  exact Multiset.zero_le _

/-- An execution under way. -/
theorem balanced_executed (h : Bytes32) (k : Address) : Balanced {.executed h k} :=
  balanced_singleton rfl

/-- An execution to the end. -/
theorem balanced_settled (h : Bytes32) (k : Address) :
    Balanced ({.executed h k} + {.settled h k}) :=
  le_refl _

theorem filterMap_owed {γ : Type} (f : GasItem → Option γ) (g : GasAct → Option γ)
    (hfg : ∀ a : GasAct, a.incurs.filterMap f = ((g a).toList : Multiset γ))
    (as : List GasAct) :
    ((gasLedger net free).owed as).filterMap f = (as.filterMap g : List γ) := by
  induction as with
  | nil => rfl
  | cons a as ih =>
      have hcons : (gasLedger net free).owed (a :: as)
          = a.incurs + (gasLedger net free).owed as := rfl
      rw [hcons, Multiset.filterMap_add, ih, hfg, List.filterMap_cons]
      cases g a <;> rfl

theorem executes_owed (as : List GasAct) :
    ((gasLedger net free).owed as).filterMap GasItem.executes
      = (as.filterMap GasAct.executes : List (Bytes32 × Address)) :=
  filterMap_owed _ _ (fun a => by cases a <;> rfl) as

theorem settles_owed (as : List GasAct) :
    ((gasLedger net free).owed as).filterMap GasItem.settles
      = (as.filterMap GasAct.settles : List (Bytes32 × Address)) :=
  filterMap_owed _ _ (fun a => by cases a <;> rfl) as

/-- A commitment is executed once. -/
theorem executes_once (hp : (gasLedger net free).Path b as b') :
    ((as.filterMap GasAct.executes).map Prod.fst).Nodup
      ∧ ∀ p ∈ as.filterMap GasAct.executes, (b'.record p.1).status = .EXECUTED := by
  induction hp with
  | nil => exact ⟨List.nodup_nil, fun p hp => absurd hp List.not_mem_nil⟩
  | @snoc as b' a _ hg ih =>
      obtain ⟨hnodup, hdone⟩ := ih
      have hkept : ∀ p ∈ as.filterMap GasAct.executes,
          ((a.effect net b').record p.1).status = .EXECUTED := by
        intro p hp
        rw [GasAct.executed_stays hg (hdone p hp)]
        exact hdone p hp
      rw [List.filterMap_append, List.map_append]
      cases a with
      | execute h k =>
          have hfresh : h ∉ (as.filterMap GasAct.executes).map Prod.fst := by
            intro hmem
            obtain ⟨p, hp, hh⟩ := List.mem_map.1 hmem
            have hexec := hdone p hp
            have hpend : (b'.record h).status = .PENDING := hg
            rw [hh, hpend] at hexec
            cases hexec
          refine ⟨?_, ?_⟩
          · apply hnodup.append (List.nodup_singleton h)
            intro x hx hxh
            rw [List.mem_singleton.1 hxh] at hx
            exact hfresh hx
          · intro p hp
            rcases List.mem_append.1 hp with hp | hp
            · exact hkept p hp
            · rw [List.mem_singleton.1 hp]
              exact (GasAct.execute_executed net b' h k).1
      | _ =>
          show (List.map _ _ ++ []).Nodup ∧ ∀ p ∈ List.filterMap _ _ ++ [], _
          rw [List.append_nil, List.append_nil]
          exact ⟨hnodup, hkept⟩

/-- Who is debited owned what was executed, and did not execute it. -/
theorem debit_path {u k : Address} {x : ℕ} {h : Bytes32}
    (hp : (gasLedger net free).Path b as b') (ha : .debit u k x h ∈ as) :
    k ≠ u ∧ b'.Executed h u := by
  induction hp with
  | nil => exact absurd ha List.not_mem_nil
  | snoc a hp hg ih =>
      have hstep : (gasLedger net free).Path _ [a] _ := .snoc a .nil hg
      rcases List.mem_append.1 ha with ha | ha
      · exact ⟨(ih ha).1, stays_executed hstep (ih ha).2⟩
      · rw [← List.mem_singleton.1 ha] at hg
        obtain ⟨-, hku, hx, -⟩ := hg
        exact ⟨hku, stays_executed hstep hx⟩

/-- The acts settle what acts started, each commitment once. -/
structure Fair (as : List GasAct) (b : GasBook) : Prop where
  /-- A debit belongs to the execution by its receiver, of the payer's own
  commitment. -/
  debited : ∀ u k x h, .debit u k x h ∈ as → k ≠ u ∧ b.Executed h u ∧ .execute h k ∈ as
  once : (as.filterMap GasAct.debits).Nodup
  /-- Nobody is debited for an execution by the owner. -/
  owner : ∀ h k, .execute h k ∈ as → (b.record h).owner = k → ∀ u k' x, .debit u k' x h ∉ as

theorem fair_path (hp : (gasLedger net free).Path b as b')
    (hbal : Balanced ((gasLedger net free).owed as)) : Fair as b' := by
  have hle : (as.filterMap GasAct.settles : Multiset (Bytes32 × Address))
      ≤ (as.filterMap GasAct.executes : List (Bytes32 × Address)) := by
    rw [← @settles_owed net free, ← @executes_owed net free]
    exact hbal
  obtain ⟨hnodup, -⟩ := executes_once hp
  have hstarted : ∀ {u k x h}, .debit u k x h ∈ as → .execute h k ∈ as := by
    intro u k x h ha
    have hset : (h, k) ∈ as.filterMap GasAct.settles :=
      List.mem_filterMap.2 ⟨_, ha, rfl⟩
    have hexe : (h, k) ∈ as.filterMap GasAct.executes := Multiset.mem_of_le hle hset
    obtain ⟨a, hmem, haeq⟩ := List.mem_filterMap.1 hexe
    cases a with
    | execute h' k' => cases haeq; exact hmem
    | _ => cases haeq
  refine ⟨?_, ?_, ?_⟩
  · intro u k x h ha
    obtain ⟨hku, hx⟩ := debit_path hp ha
    exact ⟨hku, hx, hstarted ha⟩
  · -- the hashes debited are among those settled
    have hsub : (as.filterMap GasAct.debits).Sublist
        ((as.filterMap GasAct.settles).map Prod.fst) := by
      clear hp hbal hle hnodup hstarted
      induction as with
      | nil => exact List.Sublist.refl _
      | cons a as ih =>
          cases a with
          | debit u k x h => exact ih.cons_cons h
          | waive k h => exact ih.cons h
          | _ => exact ih
    have hmap : (((as.filterMap GasAct.settles).map Prod.fst : List Bytes32) : Multiset Bytes32)
        ≤ ((as.filterMap GasAct.executes).map Prod.fst : List Bytes32) :=
      Multiset.map_le_map hle
    have hset : ((as.filterMap GasAct.settles).map Prod.fst).Nodup :=
      Multiset.nodup_of_le hmap hnodup
    exact hset.sublist hsub
  · intro h k hexe howner u k' x ha
    obtain ⟨hku, hx⟩ := debit_path hp ha
    have hpairs : ∀ {k}, .execute h k ∈ as → (h, k) ∈ as.filterMap GasAct.executes :=
      fun hmem => List.mem_filterMap.2 ⟨_, hmem, rfl⟩
    have hsame : (h, k') = (h, k) :=
      List.inj_on_of_nodup_map hnodup (hpairs (hstarted ha)) (hpairs hexe) rfl
    apply hku
    rw [← hx.2, howner]
    exact congrArg Prod.snd hsame

end Zstrategy.Contracts
