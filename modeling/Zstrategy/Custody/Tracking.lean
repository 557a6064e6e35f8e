/-
How the chain writes the book. `World.book` reads the book off a world;
`Trans d s w` says that the acts from `s` to `w` incurred what the chain
shows between the two (receipts of returned calls, settlement events) plus
the outstanding items `d` of the calls that have not returned yet.

The rules below are the proof steps of the refinement: a write that the
book does not see (`same`), an act (`act`), a log entry (`emit`), a return
(`receipt`), and a call that leaves and comes back (`ask`).

Nothing is said here about what a call does. A proof about a function goes
along its text with these rules and keeps the outstanding items in `d`: an
act adds one, a log entry or the return takes one away, and a function that
ends with `d` empty has shown all it did.
-/
import Mathlib.Tactic.Abel
import Zstrategy.Contracts.Rules
import Zstrategy.Custody.Book

namespace Zstrategy.Contracts

open Lib Code

open Function (update)

variable {net : Net} {ok : Act → Prop} {w : World}

-- ======================================================= the book of a world

def World.book (w : World) : Book where
  record := w.registry.commitments
  spent := w.registry.nullifiers
  vault := w.registry.vault
  adapter := w.registry.dexAdapter
  registryOf v := (w.vaults v).registry
  free v := (w.vaults v).freeBalance
  locked v := (w.vaults v).lockedBalance
  held := w.balances

theorem book_onVault (v : Address) (f : CollateralVault → CollateralVault) :
    (w.onVault v f).book
      = { w.book with
          registryOf := update w.book.registryOf v (f (w.vaults v)).registry,
          free := update w.book.free v (f (w.vaults v)).freeBalance,
          locked := update w.book.locked v (f (w.vaults v)).lockedBalance } := by
  unfold World.book World.onVault
  congr 1 <;> funext x <;> by_cases hx : x = v
  all_goals first
    | (subst hx; simp only [Function.update_self])
    | simp only [Function.update_of_ne hx]

@[simp] theorem book_setEntered (v : Address) (b : Bool) :
    (w.setEntered v b).book = w.book := by
  rw [World.setEntered, book_onVault]
  simp [World.book]

@[simp] theorem book_setFree (v u t : Address) (x : ℕ) :
    (w.setFree v u t x).book = w.book.setFree v u t x := by
  rw [World.setFree, book_onVault]
  simp [World.book, Book.setFree]

@[simp] theorem book_setLocked (v : Address) (h : Bytes32) (t : Address) (x : ℕ) :
    (w.setLocked v h t x).book = w.book.setLocked v h t x := by
  rw [World.setLocked, book_onVault]
  simp [World.book, Book.setLocked]

@[simp] theorem book_setRecord (h : Bytes32) (r : CommitmentRecord) :
    (w.setRecord h r).book = w.book.setRecord h r := rfl

@[simp] theorem book_spend (n : Bytes32) : (w.spend n).book = w.book.spend n := rfl

theorem book_moveToken {t : Address} (ht : net.standard t = true)
    (src dst : Address) (a : ℕ) :
    (w.moveToken t src dst a).book = w.book.pay net t src dst a := by
  unfold Book.pay
  rw [if_pos ht]
  rfl

@[simp] theorem book_emit (e : Event) : (w.emit e).book = w.book := rfl

@[simp] theorem book_setRegistryEntered (b : Bool) :
    (w.setRegistryEntered b).book = w.book := rfl

-- ============================================================ what is shown

/-- The items a log entry shows. -/
def Event.shows : Event → Multiset Item
  | .vault v (.CollateralReleased h t a _) => {.settled v h t a.val}
  | .vault v (.CollateralReturned h _ t a) => {.settled v h t a.val}
  | _ => 0

/-- The item of one row of a batch. -/
def rowItem (sender tokenIn : Address) (row : CommitmentRegistry.BatchRow) : Item :=
  .register row.1 sender tokenIn row.2.1.val

/-- The items a returned call shows. -/
def Call.shows (sender : Address) : Call → Multiset Item
  | .deposit v t a => {.deposit v sender t a.val}
  | .withdraw v t a => {.withdraw v sender t a.val}
  | .registerCommitment h tokenIn _ size _ _ _ => {.register h sender tokenIn size.val}
  | .registerCommitmentBatch hs tokenIn _ sizes minOuts expiries _ =>
      ((CommitmentRegistry.batchRows hs sizes minOuts expiries).map
        (rowItem sender tokenIn) : List Item)
  | .executeCommitment h n _ _ => {.execute h n}
  | .cancelCommitment h n => {.cancel h n}
  | _ => 0

def Receipt.shows (r : Receipt) : Multiset Item := r.call.shows r.sender

/-- Everything shown by a log and a list of receipts. -/
def shown (es : List Event) (rs : List Receipt) : Multiset Item :=
  (es.map Event.shows).sum + (rs.map Receipt.shows).sum

theorem shown_append (es es' : List Event) (rs rs' : List Receipt) :
    shown (es ++ es') (rs ++ rs') = shown es rs + shown es' rs' := by
  simp only [shown, List.map_append, List.sum_append]
  abel

theorem tally_shown (f : Item → ℕ) (es : List Event) (rs : List Receipt) :
    tally f (shown es rs)
      = (es.map fun e => tally f e.shows).sum
        + (rs.map fun r => tally f r.shows).sum := by
  have hsum : ∀ l : List (Multiset Item), tally f l.sum = (l.map (tally f)).sum := by
    intro l
    induction l with
    | nil => rfl
    | cons m l ih => rw [List.sum_cons, tally_add, ih, List.map_cons, List.sum_cons]
  rw [shown, tally_add, hsum, hsum, List.map_map, List.map_map]
  rfl

-- ================================================================= tracking

/-- From `s` to `w` the acts incurred what is shown, and `d`. -/
def Trans (net : Net) (ok : Act → Prop) (d : Multiset Item) (s w : World) : Prop :=
  ∃ m es rs, Book.Path net ok s.book m w.book ∧ w.log = s.log ++ es
    ∧ w.receipts = s.receipts ++ rs ∧ m = d + shown es rs

/-- The book of `w` is reached by acts from the book of `o`. -/
def Tracks (net : Net) (ok : Act → Prop) (o w : World) : Prop :=
  ∃ d, Trans net ok d o w

variable {d d' : Multiset Item} {o s w' : World}

namespace Trans

theorem refl (s : World) : Trans net ok 0 s s :=
  ⟨0, [], [], .nil, by simp, by simp, rfl⟩

theorem trans (h : Trans net ok d s w) (h' : Trans net ok d' w w') :
    Trans net ok (d + d') s w' := by
  obtain ⟨m, es, rs, hp, hl, hr, hm⟩ := h
  obtain ⟨m', es', rs', hp', hl', hr', hm'⟩ := h'
  refine ⟨m + m', es ++ es', rs ++ rs', hp.trans hp', ?_, ?_, ?_⟩
  · rw [hl', hl, List.append_assoc]
  · rw [hr', hr, List.append_assoc]
  · rw [hm, hm', shown_append]
    abel

/-- The outside, or a nested call, in between. -/
theorem after (h : Trans net ok d s w) (h' : Trans net ok 0 w w') :
    Trans net ok d s w' := by
  simpa using h.trans h'

/-- A write the book does not see. -/
theorem same (h : Trans net ok d s w) (hb : w'.book = w.book)
    (hl : w'.log = w.log) (hr : w'.receipts = w.receipts) :
    Trans net ok d s w' := by
  obtain ⟨m, es, rs, hp, hlog, hrec, hm⟩ := h
  exact ⟨m, es, rs, hb ▸ hp, hl.trans hlog, hr.trans hrec, hm⟩

/-- One act. -/
theorem act (h : Trans net ok d s w) {a : Act} (hok : ok a)
    (hg : a.guard net w.book) (hb : w'.book = a.effect net w.book)
    (hl : w'.log = w.log) (hr : w'.receipts = w.receipts) :
    Trans net ok (d + a.incurs net w.book) s w' := by
  obtain ⟨m, es, rs, hp, hlog, hrec, rfl⟩ := h
  refine ⟨_, es, rs, hb ▸ hp.snoc a hok hg, hl.trans hlog, hr.trans hrec, ?_⟩
  abel

/-- An act that leaves nothing to show. -/
theorem silent (h : Trans net ok d s w) {a : Act} (hok : ok a)
    (hg : a.guard net w.book) (ha : a.incurs net w.book = 0)
    (hb : w'.book = a.effect net w.book) (hl : w'.log = w.log)
    (hr : w'.receipts = w.receipts) : Trans net ok d s w' := by
  simpa [ha] using h.act hok hg hb hl hr

/-- A log entry pays for what it shows. -/
theorem emit {e : Event} (h : Trans net ok (d + e.shows) s w) :
    Trans net ok d s (w.emit e) := by
  obtain ⟨m, es, rs, hp, hl, hr, rfl⟩ := h
  refine ⟨_, es ++ [e], rs, hp, ?_, hr, ?_⟩
  · rw [World.emit, hl, List.append_assoc]
  · simp only [shown, List.map_append, List.sum_append, List.map_singleton,
      List.sum_singleton]
    abel

/-- A log entry that shows nothing. -/
theorem note {e : Event} (h : Trans net ok d s w) (he : e.shows = 0) :
    Trans net ok d s (w.emit e) :=
  emit (by rwa [he, add_zero])

/-- A return pays for what the call shows. -/
theorem receipt {x : Receipt} (h : Trans net ok x.shows s w) :
    Trans net ok 0 s { w with receipts := w.receipts ++ [x] } := by
  obtain ⟨m, es, rs, hp, hl, hr, rfl⟩ := h
  refine ⟨_, es, rs ++ [x], hp, hl, ?_, ?_⟩
  · rw [hr, List.append_assoc]
  · simp only [shown, List.map_append, List.sum_append, List.map_singleton,
      List.sum_singleton]
    abel

end Trans

-- ================================================================= the rely

theorem Tracks.trans (ho : Tracks net ok o s) (h : Trans net ok d s w) :
    Tracks net ok o w := by
  obtain ⟨d', h'⟩ := ho
  exact ⟨d' + d, h'.trans h⟩

/-- Nested calls and outside moves keep the book on the track from `o`. -/
def bookRely (net : Net) (ok : Act → Prop) (o : World) :
    Rely World Request Reply :=
  (chain net).rely (Tracks net ok o) (Trans net ok 0)

theorem bookRely_err (e : String) : (bookRely net ok o).err e := trivial

/-- A call that leaves and comes back. -/
theorem Trans.ask (h : Trans net ok d s w) (ho : Tracks net ok o s)
    {req : Request} {P : Reply → World → Prop}
    (hP : ∀ x w', Trans net ok d s w' → P x w') :
    Asks (bookRely net ok o) req P w :=
  ⟨ho.trans h, fun w' x _ hR _ => hP x w' (h.after hR)⟩

end Zstrategy.Contracts
