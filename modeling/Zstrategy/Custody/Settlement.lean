/-
One settlement per commitment and one nullifier per settlement. A record
is written twice at most: when its hash is opened and when it is closed,
and closing changes the status only. The executed and cancelled hashes
are matched with the spent nullifiers, one to one.

The argument has two halves. What becomes of one record is a path in the
order of the statuses (`Evolves`), so a hash that was opened is never opened
again, and one that is closed stays closed. What settles is counted: each
act that executes or cancels incurs one item with the hash and the
nullifier, both fresh, and each returned call shows the items of its acts.
So the pairs in the log are distinct in both components, which is what
`Lib/Matching` makes a bijection of.
-/
import Mathlib.Logic.Relation
import Zstrategy.Lib.Matching
import Zstrategy.Custody.Refinement

namespace Zstrategy.Contracts

open Lib Code

open Function (update)

variable {net : Net} {ok : Act → Prop} {b b' : Book} {a : Act}

-- ================================================================= statuses

/-- The steps a status can take. -/
inductive CommitmentStatus.Next : CommitmentStatus → CommitmentStatus → Prop
  | opened : Next .NONE .PENDING
  | closed {st : CommitmentStatus} (h : st.Terminal) : Next .PENDING st

/-- Along the steps, in any number. -/
abbrev CommitmentStatus.Follows : CommitmentStatus → CommitmentStatus → Prop :=
  Relation.ReflTransGen CommitmentStatus.Next

/-- A terminal status stays. -/
theorem CommitmentStatus.Follows.terminal {s s' : CommitmentStatus}
    (h : s.Follows s') (ht : s.Terminal) : s' = s := by
  induction h with
  | refl => rfl
  | tail _ hn ih =>
      subst ih
      cases hn <;> exact ht.elim

/-- What happened to a record: its status followed the steps, and from its
opening on nothing else changed. -/
structure CommitmentRecord.Evolves (r r' : CommitmentRecord) : Prop where
  follows : r.status.Follows r'.status
  frozen : r.status ≠ .NONE → r' = r.close r'.status

/-- A record that is not written evolves. -/
theorem CommitmentRecord.Evolves.refl (r : CommitmentRecord) : r.Evolves r :=
  ⟨.refl, fun _ => rfl⟩

/-- What is registered stays registered. -/
theorem CommitmentStatus.Follows.ne_none {s s' : CommitmentStatus}
    (h : s.Follows s') (hs : s ≠ .NONE) : s' ≠ .NONE := by
  induction h with
  | refl => exact hs
  | tail _ hn _ =>
      cases hn with
      | opened => decide
      | closed ht =>
          rintro rfl
          exact ht

/-- Evolving twice is evolving. -/
theorem CommitmentRecord.Evolves.trans {r r' r'' : CommitmentRecord}
    (h : r.Evolves r') (h' : r'.Evolves r'') : r.Evolves r'' := by
  refine ⟨h.follows.trans h'.follows, fun hr => ?_⟩
  rw [h'.frozen (h.follows.ne_none hr), h.frozen hr]
  rfl

/-- One act. -/
theorem Act.evolves (hg : a.guard net b) (h : Bytes32) :
    (b.record h).Evolves ((a.effect net b).record h) := by
  rw [Act.effect_record]
  cases hw : a.writes with
  | none => exact .refl _
  | some hr =>
      obtain ⟨h', r⟩ := hr
      by_cases hh : h = h'
      · subst hh
        simp only [Function.update_self]
        rcases Act.writes_cases hg hw with ⟨hnone, hpend, -⟩ | ⟨hpend, st, hst, rfl⟩
        · refine ⟨?_, fun hr => absurd hnone hr⟩
          rw [hnone, hpend]
          exact .single .opened
        · refine ⟨?_, fun _ => rfl⟩
          rw [hpend]
          exact .single (.closed hst)
      · simp only [Function.update_of_ne hh]
        exact .refl _

/-- Every act writes a record along its evolution, so a path does. -/
theorem evolves_path {m : Multiset Item} (hp : Book.Path net ok b m b') (h : Bytes32) :
    (b.record h).Evolves (b'.record h) := by
  induction hp with
  | nil => exact .refl _
  | snoc a _ _ hg ih => exact ih.trans (Act.evolves hg h)

/-- A spent nullifier stays spent. -/
theorem spent_path {m : Multiset Item} (hp : Book.Path net ok b m b') {n : Bytes32}
    (hn : b.spent n = true) : b'.spent n = true := by
  refine hp.inv (J := fun b => b.spent n = true) (fun a b hb _ _ => ?_) hn
  rw [Act.effect_spent]
  cases a.spends with
  | none => exact hb
  | some n' =>
      by_cases hn' : n = n'
      · simp [hn']
      · simpa [Function.update_of_ne hn'] using hb

-- ============================================================ registrations

/-- The hash that an item opens. -/
def Item.opens : Item → Option Bytes32
  | .register h _ _ _ => some h
  | _ => none

/-- Only a registration leaves an item that opens a hash. -/
theorem Act.opens_incurs {i : Item} {h : Bytes32} (hi : i ∈ a.incurs net b)
    (ho : i.opens = some h) : ∃ r, a = .register h r := by
  rcases Act.mem_incurs hi with hitem | ⟨v, h', t, x, rfl⟩
  · cases a with
    | register h' r =>
        cases hitem
        cases ho
        exact ⟨r, rfl⟩
    | deposit | withdraw | execute | cancel =>
        cases hitem
        cases ho
    | _ => cases hitem
  · cases ho

/-- A hash is opened only while its status is NONE. -/
theorem opened_path {m : Multiset Item} (hp : Book.Path net ok b m b') {i : Item}
    {h : Bytes32} (hi : i ∈ m) (ho : i.opens = some h) :
    (b.record h).status = .NONE := by
  induction hp with
  | nil => exact absurd hi (Multiset.notMem_zero i)
  | snoc a hp _ hg ih =>
      rcases Multiset.mem_add.1 hi with hi | hi
      · exact ih hi
      · obtain ⟨r, rfl⟩ := Act.opens_incurs hi ho
        by_contra hne
        exact (evolves_path hp h).follows.ne_none hne hg.1

/-- A hash that was opened is not fresh again. -/
theorem registered_path {m : Multiset Item} (hp : Book.Path net ok b m b') {i : Item}
    {h : Bytes32} (hi : i ∈ m) (ho : i.opens = some h) :
    (b'.record h).status ≠ .NONE := by
  induction hp with
  | nil => exact absurd hi (Multiset.notMem_zero i)
  | snoc a hp _ hg ih =>
      rcases Multiset.mem_add.1 hi with hi | hi
      · exact (Act.evolves hg h).follows.ne_none (ih hi)
      · obtain ⟨r, rfl⟩ := Act.opens_incurs hi ho
        have hpend : r.status = .PENDING := hg.2.1
        rw [Act.effect_record]
        simp only [Act.writes, Function.update_self, hpend]
        exact fun heq => nomatch heq

-- ================================================================ nullifiers

/-- The hash and the nullifier that an item settles. -/
def Item.consumes : Item → Option (Bytes32 × Bytes32)
  | .execute h n => some (h, n)
  | .cancel h n => some (h, n)
  | _ => none

def Act.consumes : Act → Option (Bytes32 × Bytes32)
  | .execute h n _ _ => some (h, n)
  | .cancel h n _ => some (h, n)
  | _ => none

/-- The hashes settled against a nullifier. -/
def Book.consumed (b : Book) : Set Bytes32 :=
  {h | (b.record h).status = .EXECUTED ∨ (b.record h).status = .CANCELLED}

def Book.spentSet (b : Book) : Set Bytes32 :=
  {n | b.spent n = true}

/-- The pairs that a multiset of items consumed. -/
def pairs (m : Multiset Item) : Multiset (Bytes32 × Bytes32) :=
  m.filterMap Item.consumes

/-- The pairs of two runs are those of the first and those of the second. -/
theorem pairs_add (m m' : Multiset Item) : pairs (m + m') = pairs m + pairs m' :=
  Multiset.filterMap_add _ _ _

/-- What an exit pays out is shown apart from the pair of its hash and
nullifier. -/
theorem pairs_settlement (h : Bytes32) (r : CommitmentRecord) :
    pairs (b.settlement net h r) = 0 := by
  unfold Book.settlement
  split <;> rfl

/-- An act pairs one hash with one nullifier if it consumes them, and none
otherwise. -/
theorem Act.pairs_incurs :
    pairs (a.incurs net b) = match a.consumes with | some p => {p} | none => 0 := by
  cases a with
  | execute h n r dst =>
      rw [Act.incurs, pairs_add, pairs_settlement]
      rfl
  | cancel h n r =>
      rw [Act.incurs, pairs_add, pairs_settlement]
      rfl
  | expire h r => exact pairs_settlement h r
  | _ => rfl

/-- What an act consumes was free on both sides. -/
theorem Act.fresh_of_consumes {h n : Bytes32} (hg : a.guard net b)
    (hc : a.consumes = some (h, n)) : h ∉ b.consumed ∧ n ∉ b.spentSet := by
  have hpend : ∀ {r}, b.Pending h r → h ∉ b.consumed := by
    rintro r ⟨rfl, hp⟩ (hst | hst) <;> rw [hp] at hst <;> cases hst
  have hspent : b.spent n = false → n ∉ b.spentSet := by
    intro hn hmem
    exact Bool.false_ne_true (hn.symm.trans hmem)
  cases a with
  | execute h' n' r dst =>
      cases hc
      exact ⟨hpend hg.1, hspent hg.2.1⟩
  | cancel h' n' r =>
      cases hc
      exact ⟨hpend hg.1, hspent hg.2.1⟩
  | _ => cases hc

/-- One record written: its hash joins the consumed ones or does not. -/
theorem consumed_update {h : Bytes32} {r : CommitmentRecord}
    (hr : b'.record = update b.record h r) (x : Bytes32) :
    x ∈ b'.consumed
      ↔ if x = h then r.status = .EXECUTED ∨ r.status = .CANCELLED
        else x ∈ b.consumed := by
  show (b'.record x).status = .EXECUTED ∨ (b'.record x).status = .CANCELLED ↔ _
  rw [hr]
  by_cases hx : x = h
  · rw [if_pos hx, hx, Function.update_self]
  · rw [if_neg hx, Function.update_of_ne hx]
    exact Iff.rfl

/-- The consumed hashes grow by the one that the act consumes. -/
theorem Act.effect_consumed (hg : a.guard net b) :
    (a.effect net b).consumed
      = match a.consumes with
        | some (h, _) => insert h b.consumed
        | none => b.consumed := by
  have hrec := Act.effect_record net a b
  have hold : ∀ {h}, (b.record h).status = .NONE ∨ (b.record h).status = .PENDING →
      h ∉ b.consumed := by
    rintro h (hst | hst) (hc | hc) <;> rw [hst] at hc <;> cases hc
  cases a with
  | register h r =>
      ext x
      rw [consumed_update hrec]
      by_cases hx : x = h
      · subst hx
        simp [Act.consumes, hg.2.1, hold (.inl hg.1)]
      · simp [Act.consumes, hx]
  | expire h r =>
      obtain ⟨⟨rfl, hp⟩, -⟩ := hg
      ext x
      rw [consumed_update hrec]
      by_cases hx : x = h
      · subst hx
        simp [Act.consumes, hold (.inr hp), CommitmentRecord.close]
      · simp [Act.consumes, hx]
  | execute h n r dst =>
      ext x
      rw [consumed_update hrec]
      by_cases hx : x = h <;> simp [Act.consumes, CommitmentRecord.close, hx]
  | cancel h n r =>
      ext x
      rw [consumed_update hrec]
      by_cases hx : x = h <;> simp [Act.consumes, CommitmentRecord.close, hx]
  | _ =>
      ext x
      simp only [Book.consumed, hrec, Act.writes, Act.consumes]

/-- So do the spent nullifiers, by the partner of that hash. -/
theorem Act.effect_spentSet :
    (a.effect net b).spentSet
      = match a.consumes with
        | some (_, n) => insert n b.spentSet
        | none => b.spentSet := by
  have hspent := Act.effect_spent net a b
  have hinsert : ∀ n, {x | update b.spent n true x = true} = insert n b.spentSet := by
    intro n
    ext x
    by_cases hx : x = n <;> simp [hx, Book.spentSet]
  unfold Book.spentSet
  rw [hspent]
  cases a with
  | execute h n r dst => exact hinsert n
  | cancel h n r => exact hinsert n
  | _ => rfl

/-- A nullifier that settled a hash is spent. -/
theorem consumed_path {m : Multiset Item} (hp : Book.Path net ok b m b') {h n : Bytes32}
    (hi : (h, n) ∈ pairs m) : b'.spent n = true := by
  induction hp with
  | nil => exact absurd hi (Multiset.notMem_zero _)
  | @snoc m b' a hp hok hg ih =>
      rw [pairs_add, Act.pairs_incurs, Multiset.mem_add] at hi
      show n ∈ (a.effect net b').spentSet
      rw [Act.effect_spentSet]
      rcases hi with hi | hi
      · cases a.consumes with
        | none => exact ih hi
        | some p => exact Set.mem_insert_of_mem _ (ih hi)
      · cases hc : a.consumes with
        | none =>
            rw [hc] at hi
            exact absurd hi (Multiset.notMem_zero _)
        | some p =>
            rw [hc] at hi
            cases Multiset.mem_singleton.1 hi
            exact Set.mem_insert _ _

/-- The consumed hashes and the spent nullifiers stay matched. -/
theorem matching_path {m : Multiset Item} (hp : Book.Path net ok b m b')
    (h₀ : b.consumed = ∅) (hn₀ : b.spentSet = ∅) :
    Matching (pairs m) b'.consumed b'.spentSet := by
  induction hp with
  | nil =>
      rw [h₀, hn₀]
      exact .empty
  | @snoc m b' a _ _ hg ih =>
      rw [pairs_add, Act.pairs_incurs, Act.effect_consumed hg, Act.effect_spentSet]
      cases hc : a.consumes with
      | none => simpa using ih
      | some p =>
          obtain ⟨h, n⟩ := p
          obtain ⟨hh, hn⟩ := Act.fresh_of_consumes hg hc
          exact ih.pair hh hn

-- ==================================================================== runs

/-- The call opens `h`. -/
def Call.Registers (h : Bytes32) : Call → Prop
  | .registerCommitment h' _ _ _ _ _ _ => h' = h
  | .registerCommitmentBatch hs _ _ sizes minOuts expiries _ =>
      ∃ row ∈ CommitmentRegistry.batchRows hs sizes minOuts expiries, row.1 = h
  | _ => False

/-- The hash and the nullifier that the call settles. -/
def Call.settles : Call → Option (Bytes32 × Bytes32)
  | .executeCommitment h n _ _ => some (h, n)
  | .cancelCommitment h n => some (h, n)
  | _ => none

/-- What the returned calls settled. -/
def settlements (rs : List Receipt) : List (Bytes32 × Bytes32) :=
  rs.filterMap fun r => r.call.settles

/-- Events show payments, and no pair. -/
theorem pairs_event (e : Event) : pairs e.shows = 0 := by
  cases e with
  | vault v e => cases e <;> rfl
  | registry e => rfl
  | gasVault e => rfl

/-- A returned call shows the pair it settles. -/
theorem pairs_call (u : Address) (c : Call) :
    pairs (c.shows u) = (c.settles.toList : List (Bytes32 × Bytes32)) := by
  cases c with
  | registerCommitmentBatch hs tIn tOut sizes minOuts expiries kind =>
      rw [Call.shows, pairs, Multiset.filterMap_coe, List.filterMap_map]
      simp [Call.settles, rowItem, Item.consumes, Function.comp_def]
  | _ => rfl

/-- So what is shown altogether are the settlements that returned. -/
theorem pairs_shown (es : List Event) (rs : List Receipt) :
    pairs (shown es rs) = (settlements rs : List (Bytes32 × Bytes32)) := by
  have hes : pairs (es.map Event.shows).sum = 0 := by
    induction es with
    | nil => rfl
    | cons e es ih => rw [List.map_cons, List.sum_cons, pairs_add, pairs_event, ih]; rfl
  have hrs : pairs (rs.map Receipt.shows).sum
      = (settlements rs : List (Bytes32 × Bytes32)) := by
    induction rs with
    | nil => rfl
    | cons r rs ih =>
        rw [List.map_cons, List.sum_cons, pairs_add, ih, Receipt.shows, pairs_call]
        cases hc : r.call.settles <;> simp [settlements, hc]
  rw [shown, pairs_add, hes, hrs, zero_add]

/-- A returned registration shows the item that opens its hash, also as a
row of a batch. -/
theorem Call.mem_shows_of_registers {c : Call} {h : Bytes32} {u : Address}
    (hc : c.Registers h) : ∃ i ∈ c.shows u, i.opens = some h := by
  cases c with
  | registerCommitment h' tIn tOut size minOut expiry kind =>
      cases hc
      exact ⟨_, Multiset.mem_singleton_self _, rfl⟩
  | registerCommitmentBatch hs tIn tOut sizes minOuts expiries kind =>
      obtain ⟨row, hrow, rfl⟩ := hc
      exact ⟨rowItem u tIn row, Multiset.mem_coe.2 (List.mem_map_of_mem hrow), rfl⟩
  | _ => exact hc.elim

/-- A receipt's items are among the shown ones. -/
theorem mem_shown {es : List Event} {rs : List Receipt} {r : Receipt} {i : Item}
    (hr : r ∈ rs) (hi : i ∈ r.shows) : i ∈ shown es rs := by
  refine Multiset.mem_add.2 (.inr ?_)
  induction rs with
  | nil => cases hr
  | cons x rs ih =>
      rw [List.map_cons, List.sum_cons, Multiset.mem_add]
      rcases List.mem_cons.1 hr with rfl | hr
      · exact .inl hi
      · exact .inr (ih hr)

/-- What a run shows of settlements is matched by hash and by nullifier. -/
theorem matching_run {w : World} (hd : Deployed w) {d : Multiset Item} {w' : World}
    (ht : Trans net ok d w w') :
    Matching (pairs d + Multiset.ofList (settlements w'.receipts))
      w'.book.consumed w'.book.spentSet := by
  obtain ⟨m, es, rs, hp, -, hr, rfl⟩ := ht
  have h₀ : w.book.consumed = ∅ := by
    ext h
    simp [Book.consumed, World.book, hd.commitments, CommitmentRecord.empty]
  have hn₀ : w.book.spentSet = ∅ := by
    ext n
    simp [Book.spentSet, World.book, hd.nullifiers]
  have hm := matching_path hp h₀ hn₀
  rw [pairs_add, pairs_shown] at hm
  rw [hr, hd.receipts, List.nil_append]
  exact hm

/-- A hash that is not fresh is opened by no later call. -/
theorem not_registered {w₁ w' : World} {d : Multiset Item}
    (ht : Trans net ok d w₁ w') {h : Bytes32}
    (hne : (w₁.registry.commitments h).status ≠ .NONE) :
    ∃ rs, w'.receipts = w₁.receipts ++ rs ∧ ∀ r ∈ rs, ¬r.call.Registers h := by
  obtain ⟨m, es, rs, hp, -, hr, rfl⟩ := ht
  refine ⟨rs, hr, fun r hmem hreg => hne ?_⟩
  obtain ⟨i, hi, ho⟩ := Call.mem_shows_of_registers (u := r.sender) hreg
  exact opened_path hp (Multiset.mem_add.2 (.inr (mem_shown hmem hi))) ho

/-- One settlement per commitment and one nullifier per settlement: from
any point between transactions to any later configuration, records only
evolve, settled hashes are never registered again, nullifiers stay spent;
and the executed and cancelled hashes are matched one to one with the
spent nullifiers, as the calls that settled them say. -/
theorem one_settlement {w w₁ : World} {c : ChainConfig} (hd : Deployed w)
    (h₁ : (chain net).Run anyMove ⟨w, []⟩ ⟨w₁, []⟩)
    (h₂ : (chain net).Run anyMove ⟨w₁, []⟩ c) :
    let settled := {h | (c.world.registry.commitments h).status = .EXECUTED
      ∨ (c.world.registry.commitments h).status = .CANCELLED}
    let calls := settlements c.world.receipts
    (∀ h, (w₁.registry.commitments h).Evolves (c.world.registry.commitments h))
      ∧ (∀ h, (w₁.registry.commitments h).status.Terminal →
          (c.world.registry.commitments h).status
            = (w₁.registry.commitments h).status)
      ∧ (∀ h, (w₁.registry.commitments h).status ≠ .NONE →
          ∃ rs, c.world.receipts = w₁.receipts ++ rs ∧ ∀ r ∈ rs, ¬r.call.Registers h)
      ∧ (∀ n, w₁.registry.nullifiers n = true → c.world.registry.nullifiers n = true)
      ∧ (∃ nullifier : Bytes32 → Bytes32,
          Set.BijOn nullifier settled {n | c.world.registry.nullifiers n = true}
            ∧ ∀ p ∈ calls, p.1 ∈ settled ∧ nullifier p.1 = p.2)
      ∧ (calls.map Prod.fst).Nodup ∧ (calls.map Prod.snd).Nodup
      ∧ (c.stack = [] → ∀ h ∈ settled, ∃ n, (h, n) ∈ calls) := by
  intro settled calls
  obtain ⟨d₂, ht₂⟩ := run_tracks allows_any h₂
  obtain ⟨d, ht⟩ := run_tracks allows_any (h₁.trans h₂)
  have hm := matching_run hd ht
  have hev : ∀ h, (w₁.registry.commitments h).Evolves
      (c.world.registry.commitments h) := by
    obtain ⟨m, es, rs, hp, -⟩ := ht₂
    exact evolves_path hp
  refine ⟨hev, fun h hterm => (hev h).follows.terminal hterm,
    fun h hne => not_registered ht₂ hne, fun n hn => ?_, ?_, ?_, ?_, ?_⟩
  · obtain ⟨m, es, rs, hp, -⟩ := ht₂
    exact spent_path hp hn
  · obtain ⟨f, hbij, hpair⟩ := hm.bijOn
    refine ⟨f, hbij, fun p hp => ?_⟩
    have hmem : p ∈ pairs d + Multiset.ofList (settlements c.world.receipts) :=
      Multiset.mem_add.2 (.inr (Multiset.mem_coe.2 hp))
    exact ⟨hm.left_of_mem hmem, hpair p hmem⟩
  · have hnd := hm.left_nodup
    rw [Multiset.map_add] at hnd
    exact Multiset.coe_nodup.1 (Multiset.nodup_add.1 hnd).2.1
  · have hnd := hm.right_nodup
    rw [Multiset.map_add] at hnd
    exact Multiset.coe_nodup.1 (Multiset.nodup_add.1 hnd).2.1
  · intro hstack h hh
    obtain ⟨w', stack⟩ := c
    cases hstack
    have hm := matching_run hd (run_trans allows_any (h₁.trans h₂))
    obtain ⟨n, hn⟩ := hm.exists_left hh
    have hzero : pairs 0 = 0 := rfl
    rw [hzero, zero_add] at hn
    exact ⟨n, Multiset.mem_coe.1 hn⟩

/-- Prices, two registrations, an execution through the adapter (the
router answers) and a cancellation. -/
def sampleSettlements : List ChainMove :=
  sampleSetup ++
    [call 7 (.setPriceFeed 10 30), call 7 (.setPriceFeed 11 31),
      call 8 (.registerCommitment 77 10 11 60 5 2000 .ORDER_FILL),
      call 8 (.registerCommitment 78 10 11 30 5 2000 .DCA),
      call 8 (.executeCommitment 77 500 [] 0), .answer ⟨60, 60⟩,
      call 8 (.cancelCommitment 78 501)]

theorem one_settlement_sample :
    ∃ c, (chain sampleNet).play sampleSettlements ⟨sampleWorld, []⟩ = some c
      ∧ settlements c.world.receipts = [(77, 500), (78, 501)]
      ∧ ∃ nullifier : Bytes32 → Bytes32,
          Set.BijOn nullifier
            {h | (c.world.registry.commitments h).status = .EXECUTED
              ∨ (c.world.registry.commitments h).status = .CANCELLED}
            {n | c.world.registry.nullifiers n = true}
          ∧ nullifier 77 = 500 ∧ nullifier 78 = 501 := by
  have hsome : ((chain sampleNet).play sampleSettlements
      ⟨sampleWorld, []⟩).isSome = true := rfl
  obtain ⟨c, hc⟩ := Option.isSome_iff_exists.1 hsome
  have hpairs : settlements c.world.receipts = [(77, 500), (78, 501)] := by
    rw [show c = Option.get _ hsome by simp [hc]]
    rfl
  have hrun := System.Run.of_play (P := anyMove) (fun _ _ _ => trivial) hc
  obtain ⟨-, -, -, -, ⟨f, hbij, hf⟩, -⟩ :=
    one_settlement sampleWorld_deployed (.refl _) hrun
  rw [hpairs] at hf
  exact ⟨c, hc, hpairs, f, hbij, (hf (77, 500) (by simp)).2, (hf (78, 501) (by simp)).2⟩

end Zstrategy.Contracts
