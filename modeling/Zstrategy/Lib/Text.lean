/-
Searching a text for a fixed piece of it. A message is put together from
parts; where the parts around one of them cannot begin or end an
occurrence, the piece occurs in the message only if it occurs in that
part.
-/
import Mathlib.Data.List.Basic

namespace Zstrategy.Lib

variable {α : Type} {x c : α} {t a b m : List α}

theorem prefix_of_prefix_append (hc : c ∉ t) (h : t <+: m ++ c :: b) : t <+: m := by
  induction t generalizing m with
  | nil => exact List.nil_prefix
  | cons y t ih =>
      rw [List.mem_cons, not_or] at hc
      cases m with
      | nil =>
          rw [List.nil_append, List.cons_prefix_cons] at h
          exact absurd h.1.symm hc.1
      | cons z m =>
          rw [List.cons_append, List.cons_prefix_cons] at h
          rw [List.cons_prefix_cons]
          exact ⟨h.1, ih hc.2 h.2⟩

/-- Nothing before `m` begins the piece. -/
theorem infix_of_infix_append (hx : x ∉ a) (h : x :: t <:+: a ++ m) : x :: t <:+: m := by
  induction a with
  | nil => exact h
  | cons y a ih =>
      rw [List.mem_cons, not_or] at hx
      rw [List.cons_append, List.infix_cons_iff] at h
      rcases h with hfront | hinner
      · rw [List.cons_prefix_cons] at hfront
        exact absurd hfront.1 hx.1
      · exact ih hx.2 hinner

/-- The piece does not contain `c`, and nothing after it begins one. -/
theorem infix_of_infix_separator (hc : c ∉ x :: t) (hx : x ∉ b)
    (h : x :: t <:+: m ++ c :: b) : x :: t <:+: m := by
  induction m with
  | nil =>
      rw [List.nil_append, List.infix_cons_iff] at h
      rcases h with hfront | hinner
      · rw [List.cons_prefix_cons] at hfront
        exact absurd (hfront.1 ▸ List.mem_cons_self) hc
      · exact absurd (hinner.subset List.mem_cons_self) hx
  | cons y m ih =>
      rw [List.cons_append, List.infix_cons_iff] at h
      rw [List.infix_cons_iff]
      rcases h with hfront | hinner
      · exact Or.inl (prefix_of_prefix_append hc hfront)
      · exact Or.inr (ih hinner)

/-- The piece does not end in `c`. -/
theorem infix_of_infix_concat (hc : (x :: t).getLast? ≠ some c) (h : x :: t <:+: m ++ [c]) :
    x :: t <:+: m := by
  induction m with
  | nil =>
      rw [List.nil_append, List.infix_cons_iff] at h
      rcases h with hfront | hinner
      · rw [List.cons_prefix_cons, List.prefix_nil] at hfront
        obtain ⟨rfl, rfl⟩ := hfront
        exact absurd rfl hc
      · exact absurd hinner.subset (by simp)
  | cons y m ih =>
      rw [List.cons_append, List.infix_cons_iff] at h
      rw [List.infix_cons_iff]
      rcases h with hfront | hinner
      · rw [← List.cons_append, List.prefix_concat_iff] at hfront
        rcases hfront with hall | hfront
        · rw [hall] at hc
          exact absurd List.getLast?_concat hc
        · exact Or.inl hfront
      · exact Or.inr (ih hinner)

variable [BEq α]

/-- `message.includes(text)`. -/
def occurs (text : List α) : List α → Bool
  | [] => text.isPrefixOf []
  | c :: cs => text.isPrefixOf (c :: cs) || occurs text cs

theorem occurs_iff [LawfulBEq α] : occurs t m = true ↔ t <:+: m := by
  induction m with
  | nil => simp [occurs]
  | cons c cs ih => simp [occurs, List.infix_cons_iff, ih]

end Zstrategy.Lib
