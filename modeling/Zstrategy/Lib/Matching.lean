/-
Perfect matchings kept as a multiset of pairs. A process that pairs a
fresh left element with a fresh right one at a time has, at every moment,
a bijection between what it used up on either side; this file keeps the
pairs and reads the bijection off.

Nothing is assumed of the process but that what it pairs is fresh on both
sides.
-/
import Mathlib.Data.Multiset.MapFold
import Mathlib.Data.Multiset.UnionInter
import Mathlib.Data.Set.Function

namespace Zstrategy.Lib

variable {α β : Type}

/-- `m` pairs every element of `A` with one of `B`, each side once. -/
structure Matching (m : Multiset (α × β)) (A : Set α) (B : Set β) : Prop where
  left_nodup : (m.map Prod.fst).Nodup
  left_mem : ∀ a, a ∈ m.map Prod.fst ↔ a ∈ A
  right_nodup : (m.map Prod.snd).Nodup
  right_mem : ∀ b, b ∈ m.map Prod.snd ↔ b ∈ B

namespace Matching

variable {m : Multiset (α × β)} {A : Set α} {B : Set β} {a : α} {b : β}

theorem empty : Matching (0 : Multiset (α × β)) ∅ ∅ := by
  constructor <;> simp

/-- Pair two fresh elements. -/
theorem pair (h : Matching m A B) (ha : a ∉ A) (hb : b ∉ B) :
    Matching (m + {(a, b)}) (insert a A) (insert b B) := by
  have ha' : a ∉ m.map Prod.fst := fun hm => ha ((h.left_mem a).1 hm)
  have hb' : b ∉ m.map Prod.snd := fun hm => hb ((h.right_mem b).1 hm)
  rw [Multiset.add_comm, Multiset.singleton_add]
  constructor
  · rw [Multiset.map_cons, Multiset.nodup_cons]
    exact ⟨ha', h.left_nodup⟩
  · intro x
    rw [Multiset.map_cons, Multiset.mem_cons, h.left_mem, Set.mem_insert_iff]
  · rw [Multiset.map_cons, Multiset.nodup_cons]
    exact ⟨hb', h.right_nodup⟩
  · intro x
    rw [Multiset.map_cons, Multiset.mem_cons, h.right_mem, Set.mem_insert_iff]

theorem eq_of_left (h : Matching m A B) {p q : α × β} (hp : p ∈ m) (hq : q ∈ m)
    (heq : p.1 = q.1) : p = q :=
  Multiset.inj_on_of_nodup_map h.left_nodup p hp q hq heq

theorem eq_of_right (h : Matching m A B) {p q : α × β} (hp : p ∈ m) (hq : q ∈ m)
    (heq : p.2 = q.2) : p = q :=
  Multiset.inj_on_of_nodup_map h.right_nodup p hp q hq heq

theorem nodup (h : Matching m A B) : m.Nodup :=
  Multiset.Nodup.of_map _ h.left_nodup

theorem left_of_mem (h : Matching m A B) {p : α × β} (hp : p ∈ m) : p.1 ∈ A :=
  (h.left_mem p.1).1 (Multiset.mem_map_of_mem _ hp)

theorem right_of_mem (h : Matching m A B) {p : α × β} (hp : p ∈ m) : p.2 ∈ B :=
  (h.right_mem p.2).1 (Multiset.mem_map_of_mem _ hp)

theorem exists_left (h : Matching m A B) (ha : a ∈ A) : ∃ b, (a, b) ∈ m := by
  obtain ⟨⟨x, b⟩, hp, rfl⟩ := Multiset.mem_map.1 ((h.left_mem a).2 ha)
  exact ⟨b, hp⟩

theorem exists_right (h : Matching m A B) (hb : b ∈ B) : ∃ a, (a, b) ∈ m := by
  obtain ⟨⟨a, x⟩, hp, rfl⟩ := Multiset.mem_map.1 ((h.right_mem b).2 hb)
  exact ⟨a, hp⟩

/-- The matching as a function from the left side. -/
theorem bijOn [Inhabited β] (h : Matching m A B) :
    ∃ f : α → β, Set.BijOn f A B ∧ ∀ p ∈ m, f p.1 = p.2 := by
  classical
  let f : α → β := fun a => if ha : a ∈ A then (h.exists_left ha).choose else default
  have hf : ∀ a ∈ A, (a, f a) ∈ m := by
    intro a ha
    have := (h.exists_left ha).choose_spec
    simpa [f, ha] using this
  have hpair : ∀ p ∈ m, f p.1 = p.2 := by
    intro p hp
    have := h.eq_of_left (hf p.1 (h.left_of_mem hp)) hp rfl
    exact congrArg Prod.snd this
  refine ⟨f, ⟨?_, ?_, ?_⟩, hpair⟩
  · exact fun a ha => h.right_of_mem (hf a ha)
  · intro a ha a' ha' heq
    have := h.eq_of_right (hf a ha) (hf a' ha') heq
    exact congrArg Prod.fst this
  · intro b hb
    obtain ⟨a, hp⟩ := h.exists_right hb
    exact ⟨a, h.left_of_mem hp, hpair (a, b) hp⟩

end Matching

end Zstrategy.Lib
