/-
Ledgers with receipts. An act is entered when its guard holds, changes the
books, and leaves items to be shown. Somebody keeps receipts, each of
which shows some items. `Between d` compares the two sides: from one state
to another the acts left what the new receipts show, and `d` on top, which
is still to be shown.

The acts are kept in their order, so that a fact about one act can speak
of the books it was entered on; the items are compared as multisets, since
receipts are written when calls return and acts when they happen.

# Composing

A program is followed piece by piece: an act adds its items to `d`, a
receipt takes away what it shows, and two stretches compose by adding what
they leave open. A call that has returned with nothing open has shown all
that it did.
-/
import Mathlib.Algebra.BigOperators.Group.Multiset.Basic
import Mathlib.Tactic.Abel

namespace Zstrategy.Lib

variable {β α ι κ : Type}

structure Ledger (β α ι : Type) where
  /-- When an act can happen. -/
  guard : α → β → Prop
  /-- What it does to the books. -/
  effect : α → β → β
  /-- What it leaves to be shown. -/
  incurs : α → Multiset ι

namespace Ledger

/-- The books after the acts of a list, each entered on what it finds. -/
inductive Path (L : Ledger β α ι) (b : β) : List α → β → Prop
  | nil : Path L b [] b
  | snoc {as : List α} {b' : β} (a : α) (h : Path L b as b') (hg : L.guard a b') :
      Path L b (as ++ [a]) (L.effect a b')

/-- What a list of acts leaves to be shown. -/
def owed (L : Ledger β α ι) (as : List α) : Multiset ι :=
  (as.map L.incurs).sum

/-- What a list of receipts shows. -/
def shown (shows : κ → Multiset ι) (rs : List κ) : Multiset ι :=
  (rs.map shows).sum

/-- From books and receipts `x` to `y` the acts left what the new receipts
show, and `d`. -/
def Between (L : Ledger β α ι) (shows : κ → Multiset ι) (d : Multiset ι)
    (x y : β × List κ) : Prop :=
  ∃ as rs, L.Path x.1 as y.1 ∧ y.2 = x.2 ++ rs ∧ L.owed as = d + shown shows rs

variable {L : Ledger β α ι} {b b' b'' : β} {as as' : List α}

-- ==================================================================== paths

theorem Path.trans (h : L.Path b as b') (h' : L.Path b' as' b'') :
    L.Path b (as ++ as') b'' := by
  induction h' with
  | nil =>
      rw [List.append_nil]
      exact h
  | snoc a _ hg ih =>
      rw [← List.append_assoc]
      exact .snoc a ih hg

/-- What every act keeps holds along a path. -/
theorem Path.inv {J : β → Prop} (hJ : ∀ a b, J b → L.guard a b → J (L.effect a b))
    (h : L.Path b as b') (h₀ : J b) : J b' := by
  induction h with
  | nil => exact h₀
  | snoc a _ hg ih => exact hJ a _ ih hg

theorem owed_append (L : Ledger β α ι) (as as' : List α) :
    L.owed (as ++ as') = L.owed as + L.owed as' := by
  simp only [owed, List.map_append, List.sum_append]

theorem owed_singleton (L : Ledger β α ι) (a : α) : L.owed [a] = L.incurs a := by
  simp only [owed, List.map_singleton, List.sum_singleton]

-- ================================================================= comparing

variable {shows : κ → Multiset ι} {d d' : Multiset ι} {x y z : β × List κ}

theorem shown_append (rs rs' : List κ) :
    shown shows (rs ++ rs') = shown shows rs + shown shows rs' := by
  simp only [shown, List.map_append, List.sum_append]

theorem shown_singleton (r : κ) : shown shows [r] = shows r := by
  simp only [shown, List.map_singleton, List.sum_singleton]

namespace Between

theorem refl (x : β × List κ) : L.Between shows 0 x x :=
  ⟨[], [], .nil, (List.append_nil _).symm, rfl⟩

theorem trans (h : L.Between shows d x y) (h' : L.Between shows d' y z) :
    L.Between shows (d + d') x z := by
  obtain ⟨as, rs, hp, hr, hd⟩ := h
  obtain ⟨as', rs', hp', hr', hd'⟩ := h'
  refine ⟨as ++ as', rs ++ rs', hp.trans hp', ?_, ?_⟩
  · rw [hr', hr, List.append_assoc]
  · rw [owed_append, hd, hd', shown_append]
    abel

/-- Somebody else's acts, all shown. -/
theorem after (h : L.Between shows d x y) (h' : L.Between shows 0 y z) :
    L.Between shows d x z := by
  have htrans := h.trans h'
  rwa [add_zero] at htrans

/-- One act. -/
theorem act {rs : List κ} (h : L.Between shows d x (b, rs)) (a : α) (hg : L.guard a b) :
    L.Between shows (d + L.incurs a) x (L.effect a b, rs) := by
  obtain ⟨as, rs, hp, hr, hd⟩ := h
  refine ⟨as ++ [a], rs, hp.snoc a hg, hr, ?_⟩
  rw [owed_append, hd, owed_singleton]
  abel

/-- A receipt pays for what it shows. -/
theorem receipt {rs : List κ} {r : κ} (h : L.Between shows (shows r) x (b, rs)) :
    L.Between shows 0 x (b, rs ++ [r]) := by
  obtain ⟨as, rs', hp, hr, hd⟩ := h
  refine ⟨as, rs' ++ [r], hp, ?_, ?_⟩
  · rw [← List.append_assoc, ← hr]
  · rw [hd, shown_append, shown_singleton]
    abel

end Between

end Ledger

end Zstrategy.Lib
