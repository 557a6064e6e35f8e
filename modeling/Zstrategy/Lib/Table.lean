/-
Database tables with one unique column. A `Table` is its rows in insertion
order together with the proof that no two rows agree on the key, so an
update of a keyed row is an update of one row, and what a query by key
returns decides the table at that key. `find` is the query by key;
every operation has one lemma that says what `find` answers after it.

The proof of uniqueness is a field, so no lemma about a table has to assume
it, and an operation that would break it, `insert`, answers `none` as the
database answers with an error.
-/
import Mathlib.Data.List.Nodup
import Mathlib.Logic.Function.Basic

namespace Zstrategy.Lib

/-- Rows without a repeated key. -/
structure Table {α κ : Type} (key : α → κ) where
  rows : List α
  unique : (rows.map key).Nodup

namespace Table

variable {α κ : Type} {key : α → κ}

/-- No rows. -/
def empty : Table key := ⟨[], List.nodup_nil⟩

/-- Two rows with one key are one row. -/
theorem eq_of_key {t : Table key} {a b : α} (ha : a ∈ t.rows) (hb : b ∈ t.rows)
    (h : key a = key b) : a = b :=
  List.inj_on_of_nodup_map t.unique ha hb h

variable [DecidableEq κ]

/-- `SELECT … WHERE key = k LIMIT 1`. -/
def find (t : Table key) (k : κ) : Option α :=
  t.rows.find? fun a => key a = k

@[simp] theorem find_empty (k : κ) : (empty : Table key).find k = none := rfl

theorem find_eq_none {t : Table key} {k : κ} :
    t.find k = none ↔ ∀ a ∈ t.rows, key a ≠ k := by
  simp [find, List.find?_eq_none]

theorem key_of_find {t : Table key} {k : κ} {a : α} (h : t.find k = some a) : key a = k := by
  simpa using List.find?_some h

theorem mem_of_find {t : Table key} {k : κ} {a : α} (h : t.find k = some a) : a ∈ t.rows :=
  List.mem_of_find?_eq_some h

/-- A row is what its key finds. -/
theorem find_of_mem {t : Table key} {a : α} (ha : a ∈ t.rows) : t.find (key a) = some a := by
  cases hf : t.find (key a) with
  | none => exact absurd rfl (find_eq_none.1 hf a ha)
  | some b =>
      have hb : key b = key a := key_of_find hf
      rw [eq_of_key (mem_of_find hf) ha hb]

theorem mem_iff_find {t : Table key} {a : α} : a ∈ t.rows ↔ t.find (key a) = some a :=
  ⟨find_of_mem, mem_of_find⟩

/-- The rows of a key: the one that `find` returns, or none. -/
theorem rows_of_key (t : Table key) (k : κ) :
    t.rows.filter (fun a => key a = k) = (t.find k).toList := by
  obtain ⟨rows, hu⟩ := t
  unfold find
  induction rows with
  | nil => rfl
  | cons a rows ih =>
      rw [List.map_cons, List.nodup_cons] at hu
      by_cases ha : key a = k
      · have hnone : rows.filter (fun b => key b = k) = [] := by
          rw [List.filter_eq_nil_iff]
          intro b hb hk
          apply hu.1
          rw [ha, ← of_decide_eq_true hk]
          exact List.mem_map_of_mem hb
        simp [ha, hnone]
      · simpa [ha] using ih hu.2

-- ================================================================== writing

/-- `INSERT`; `none` on a duplicate key. -/
def insert (t : Table key) (a : α) : Option (Table key) :=
  if h : t.find (key a) = none then
    some ⟨t.rows ++ [a], by
      rw [List.map_append, List.nodup_append]
      refine ⟨t.unique, List.nodup_singleton _, ?_⟩
      intro k hk k' hk'
      obtain ⟨b, hb, rfl⟩ := List.mem_map.1 hk
      rw [List.map_singleton, List.mem_singleton] at hk'
      rw [hk']
      exact find_eq_none.1 h b hb⟩
  else none

theorem insert_eq_none {t : Table key} {a : α} :
    t.insert a = none ↔ (t.find (key a)).isSome := by
  unfold insert
  split <;> simp_all [Option.isSome_iff_ne_none]

theorem exists_insert {t : Table key} {a : α} (h : t.find (key a) = none) :
    ∃ t', t.insert a = some t' := by
  rw [insert, dif_pos h]
  exact ⟨_, rfl⟩

theorem rows_of_insert {t t' : Table key} {a : α} (h : t.insert a = some t') :
    t'.rows = t.rows ++ [a] := by
  unfold insert at h
  split at h
  · cases h
    rfl
  · nomatch h

theorem fresh_of_insert {t t' : Table key} {a : α} (h : t.insert a = some t') :
    t.find (key a) = none := by
  by_contra hne
  rw [insert, dif_neg hne] at h
  nomatch h

theorem find_insert {t t' : Table key} {a : α} (h : t.insert a = some t') (k : κ) :
    t'.find k = if key a = k then some a else t.find k := by
  have hfresh := fresh_of_insert h
  unfold find at hfresh ⊢
  rw [rows_of_insert h, List.find?_append]
  by_cases hk : key a = k
  · subst hk
    simp [hfresh]
  · simp [hk]

/-- `UPDATE … WHERE p`, of columns other than the key. -/
def updateWhere (t : Table key) (p : α → Bool) (f : α → α) (hf : ∀ a, key (f a) = key a) :
    Table key :=
  ⟨t.rows.map fun a => if p a then f a else a, by
    have hkeys : (t.rows.map fun a => if p a then f a else a).map key = t.rows.map key := by
      rw [List.map_map]
      apply List.map_congr_left
      intro a _
      by_cases hp : p a <;> simp [hp, hf]
    rw [hkeys]
    exact t.unique⟩

theorem find_updateWhere (t : Table key) (p : α → Bool) (f : α → α)
    (hf : ∀ a, key (f a) = key a) (k : κ) :
    (t.updateWhere p f hf).find k = (t.find k).map fun a => if p a then f a else a := by
  unfold find updateWhere
  rw [List.find?_map]
  congr 2
  funext a
  by_cases hp : p a <;> simp [hp, hf]

/-- `UPDATE … WHERE key = k`. -/
def update (t : Table key) (k : κ) (f : α → α) (hf : ∀ a, key (f a) = key a) : Table key :=
  t.updateWhere (fun a => key a = k) f hf

theorem find_update (t : Table key) (k : κ) (f : α → α) (hf : ∀ a, key (f a) = key a)
    (k' : κ) :
    (t.update k f hf).find k' = if k' = k then (t.find k).map f else t.find k' := by
  unfold update
  rw [find_updateWhere]
  by_cases hk : k' = k
  · subst hk
    rw [if_pos rfl]
    cases hfind : t.find k' with
    | none => rfl
    | some a => simp [key_of_find hfind]
  · rw [if_neg hk]
    cases hfind : t.find k' with
    | none => rfl
    | some a => simp [key_of_find hfind, hk]

/-- `INSERT OR REPLACE`: the row of the same key goes, the new one is last. -/
def put (t : Table key) (a : α) : Table key :=
  ⟨t.rows.filter (fun b => key b ≠ key a) ++ [a], by
    rw [List.map_append, List.nodup_append]
    refine ⟨(List.Sublist.map key List.filter_sublist).nodup t.unique,
      List.nodup_singleton _, ?_⟩
    intro k hk k' hk'
    obtain ⟨b, hb, rfl⟩ := List.mem_map.1 hk
    rw [List.map_singleton, List.mem_singleton] at hk'
    rw [hk']
    exact of_decide_eq_true (List.mem_filter.1 hb).2⟩

theorem find_put (t : Table key) (a : α) (k : κ) :
    (t.put a).find k = if key a = k then some a else t.find k := by
  unfold find put
  rw [List.find?_append]
  by_cases hk : key a = k
  · have hnone : (t.rows.filter fun b => key b ≠ key a).find? (fun b => key b = k) = none := by
      rw [List.find?_eq_none]
      intro b hb
      rw [← hk]
      simpa using (List.mem_filter.1 hb).2
    rw [hnone, if_pos hk]
    simp [hk]
  · have hother : (t.rows.filter fun b => key b ≠ key a).find? (fun b => key b = k)
        = t.rows.find? fun b => key b = k := by
      rw [List.find?_filter]
      congr 1
      funext b
      by_cases hb : key b = k
      · have hne : key b ≠ key a := fun h => hk (h.symm.trans hb)
        simp [hb, hb ▸ hne]
      · simp [hb]
    rw [hother, if_neg hk]
    simp [hk]

/-- Rows of other keys do not matter to what a key finds. -/
theorem find_foldl_put_of_notMem {l : List α} {k : κ} (hk : k ∉ l.map key) (t : Table key) :
    (l.foldl put t).find k = t.find k := by
  induction l generalizing t with
  | nil => rfl
  | cons a l ih =>
      rw [List.map_cons, List.mem_cons, not_or] at hk
      rw [List.foldl_cons, ih hk.2, find_put, if_neg (Ne.symm hk.1)]

/-- Rows of distinct keys, put one after the other, are all found. -/
theorem find_foldl_put {l : List α} (hl : (l.map key).Nodup) {a : α} (ha : a ∈ l)
    (t : Table key) : (l.foldl put t).find (key a) = some a := by
  induction l generalizing t with
  | nil => cases ha
  | cons b l ih =>
      rw [List.map_cons, List.nodup_cons] at hl
      rw [List.foldl_cons]
      rcases List.mem_cons.1 ha with rfl | ha
      · rw [find_foldl_put_of_notMem hl.1, find_put, if_pos rfl]
      · exact ih hl.2 ha _

/-- What is there afterwards was put or was there before. -/
theorem mem_foldl_put {l : List α} {t : Table key} {a : α} (h : a ∈ (l.foldl put t).rows) :
    a ∈ l ∨ a ∈ t.rows := by
  induction l generalizing t with
  | nil => exact Or.inr h
  | cons b l ih =>
      rcases ih h with hl | hput
      · exact Or.inl (List.mem_cons_of_mem b hl)
      · rcases List.mem_append.1 hput with hold | hnew
        · exact Or.inr (List.mem_of_mem_filter hold)
        · rw [List.mem_singleton.1 hnew]
          exact Or.inl List.mem_cons_self

/-- `DELETE … WHERE p`. -/
def deleteWhere (t : Table key) (p : α → Bool) : Table key :=
  ⟨t.rows.filter fun a => !p a,
    (List.Sublist.map key List.filter_sublist).nodup t.unique⟩

end Table

end Zstrategy.Lib
