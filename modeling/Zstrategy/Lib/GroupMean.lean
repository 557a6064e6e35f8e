/-
Means that are taken group by group and put together again. A row has a
value or none. Each group of rows has the mean of the values it has, and
the groups are recombined with the number of their rows as weights, a
group whose mean is not positive being left out.

That is the mean of all values for every grouping if all values are one
and the same, not negative, or if every row has a positive value
(`recombined_eq_mean`), and for no other rows (`recombines_of_forall`):
the rows of one value, alone in their group or together with the rows that
have none, give it away.

Rows are of any type, with a value that may be missing and a key that names
the group. The means are taken in a linearly ordered field, so nothing here
depends on how a division is rounded.
-/
import Mathlib.Algebra.BigOperators.Field
import Mathlib.Algebra.Order.BigOperators.Group.Finset
import Mathlib.Algebra.Order.BigOperators.Group.List
import Mathlib.Algebra.Order.Field.Basic
import Mathlib.Data.Fintype.BigOperators
import Mathlib.Tactic.Linarith

namespace Zstrategy.Lib

variable {α κ K : Type} [Field K]

/-- The mean of a list, zero if it is empty. -/
def mean (xs : List K) : K := xs.sum / xs.length

variable [LinearOrder K]

section Recombining

variable (value : α → Option K)

/-- What a group adds to the sum. -/
def weighted (g : List α) : K :=
  if 0 < mean (g.filterMap value) then mean (g.filterMap value) * g.length else 0

/-- What it adds to the weights. -/
def weight (g : List α) : K :=
  if 0 < mean (g.filterMap value) then g.length else 0

/-- The means of the groups, put together. -/
def recombined [Fintype κ] [DecidableEq κ] (key : α → κ) (l : List α) : K :=
  (∑ k, weighted value (l.filter fun a => key a = k))
    / ∑ k, weight value (l.filter fun a => key a = k)

/-- All values are one, or every row has a positive one. -/
def Recombines (l : List α) : Prop :=
  (∃ x, 0 ≤ x ∧ ∀ v ∈ l.filterMap value, v = x) ∨ ∀ a ∈ l, ∃ v, value a = some v ∧ 0 < v

end Recombining

variable {value : α → Option K} {l g : List α} {xs : List K}

theorem weighted_nil : weighted value [] = 0 := by simp [weighted, mean]

theorem weight_nil : weight value [] = 0 := by simp [weight, mean]

-- ============================================================ sums over groups

section Groups

variable [Fintype κ] [DecidableEq κ]

/-- Every row is in one group. -/
theorem sum_groups {M : Type} [AddCommMonoid M] (key : α → κ) (f : α → M) (l : List α) :
    ∑ k, ((l.filter fun a => key a = k).map f).sum = (l.map f).sum := by
  induction l with
  | nil => simp
  | cons a l ih =>
      have hcons : ∀ k, (((a :: l).filter fun b => key b = k).map f).sum
          = (if key a = k then f a else 0) + ((l.filter fun b => key b = k).map f).sum := by
        intro k
        by_cases hk : key a = k
        · rw [List.filter_cons_of_pos (by simpa using hk), if_pos hk, List.map_cons, List.sum_cons]
        · rw [List.filter_cons_of_neg (by simpa using hk), if_neg hk, zero_add]
      rw [Finset.sum_congr rfl fun k _ => hcons k, Finset.sum_add_distrib, ih,
        Finset.sum_ite_eq, if_pos (Finset.mem_univ _), List.map_cons, List.sum_cons]

omit [LinearOrder K] in
theorem sum_filterMap (l : List α) :
    (l.filterMap value).sum = (l.map fun a => (value a).getD 0).sum := by
  induction l with
  | nil => rfl
  | cons a l ih =>
      cases ha : value a with
      | none => simp [ha, ih]
      | some v => simp [ha, ih]

omit [LinearOrder K] in
theorem sum_values (key : α → κ) (l : List α) :
    ∑ k, ((l.filter fun a => key a = k).filterMap value).sum = (l.filterMap value).sum := by
  simp only [sum_filterMap]
  exact sum_groups key _ l

theorem sum_lengths {M : Type} [AddCommMonoidWithOne M] (key : α → κ) (l : List α) :
    ∑ k, ((l.filter fun a => key a = k).length : M) = l.length := by
  have hone : ∀ g : List α, (g.length : M) = (g.map fun _ => (1 : M)).sum := by
    intro g
    rw [List.map_const', List.sum_replicate, nsmul_one]
  simp only [hone]
  exact sum_groups key _ l

omit [LinearOrder K] in
/-- A grouping into two. -/
theorem sum_split {k₀ k₁ : κ} (hne : k₀ ≠ k₁) {F : List α → K} (hF : F [] = 0) (p : α → Bool)
    (l : List α) :
    ∑ k, F (l.filter fun a => (if p a then k₀ else k₁) = k)
      = F (l.filter p) + F (l.filter fun a => !p a) := by
  have hzero : (l.filter fun a => (if p a then k₀ else k₁) = k₀) = l.filter p := by
    apply List.filter_congr
    intro a _
    cases p a with
    | true => simp
    | false => simp [hne.symm]
  have hone : (l.filter fun a => (if p a then k₀ else k₁) = k₁) = l.filter fun a => !p a := by
    apply List.filter_congr
    intro a _
    cases p a with
    | true => simp [hne]
    | false => simp
  rw [Fintype.sum_eq_add k₀ k₁ hne, hzero, hone]
  intro k hk
  have hempty : (l.filter fun a => (if p a then k₀ else k₁) = k) = [] := by
    rw [List.filter_eq_nil_iff]
    intro a _
    cases p a with
    | true => simpa using hk.1.symm
    | false => simpa using hk.2.symm
  rw [hempty, hF]

/-- Two groups, put together. -/
theorem recombined_split {k₀ k₁ : κ} (hne : k₀ ≠ k₁) (p : α → Bool) (l : List α) :
    recombined value (fun a => if p a then k₀ else k₁) l
      = (weighted value (l.filter p) + weighted value (l.filter fun a => !p a))
        / (weight value (l.filter p) + weight value (l.filter fun a => !p a)) := by
  unfold recombined
  rw [sum_split hne weighted_nil, sum_split hne weight_nil]

/-- Groups of other rows, with the values and the keys carried over. -/
theorem recombined_map {β : Type} (value : β → Option K) (key : β → κ) (f : α → β) (l : List α) :
    recombined value key (l.map f) = recombined (fun a => value (f a)) (fun a => key (f a)) l := by
  have hgroup : ∀ k, (((l.map f).filter fun b => key b = k).filterMap value)
      = (l.filter fun a => key (f a) = k).filterMap fun a => value (f a) := by
    intro k
    rw [List.filter_map, List.filterMap_map]
    rfl
  have hlength : ∀ k, ((l.map f).filter fun b => key b = k).length
      = (l.filter fun a => key (f a) = k).length := by
    intro k
    rw [List.filter_map, List.length_map]
    rfl
  unfold recombined weighted weight
  simp only [hgroup, hlength]

end Groups

/-- The values of a group are values of the rows. -/
theorem mem_group {β : Type} {f : α → Option β} {p : α → Bool} {v : β}
    (hv : v ∈ (l.filter p).filterMap f) : v ∈ l.filterMap f := by
  obtain ⟨a, ha, hav⟩ := List.mem_filterMap.1 hv
  exact List.mem_filterMap.2 ⟨a, List.mem_of_mem_filter ha, hav⟩

-- =================================================================== the mean

variable [IsStrictOrderedRing K]

theorem mean_mul_length (xs : List K) : mean xs * xs.length = xs.sum := by
  cases xs with
  | nil => simp [mean]
  | cons x xs =>
      have hne : ((x :: xs).length : K) ≠ 0 := Nat.cast_ne_zero.2 (by simp)
      exact div_mul_cancel₀ _ hne

/-- The mean of all, from those of two groups. -/
theorem mean_two (value : α → Option K) (p : α → Bool) (l : List α) :
    mean ((l.filter p).filterMap value) * ((l.filter p).filterMap value).length
        + mean ((l.filter fun a => !p a).filterMap value)
          * ((l.filter fun a => !p a).filterMap value).length
      = mean (l.filterMap value) * (((l.filter p).filterMap value).length
          + ((l.filter fun a => !p a).filterMap value).length) := by
  have hperm := (List.filter_append_perm p l).filterMap value
  rw [List.filterMap_append] at hperm
  have hlength : (((l.filter p).filterMap value).length : K)
      + ((l.filter fun a => !p a).filterMap value).length = (l.filterMap value).length := by
    rw [← Nat.cast_add, ← List.length_append, hperm.length_eq]
  rw [hlength, mean_mul_length, mean_mul_length, mean_mul_length, ← List.sum_append, hperm.sum_eq]

theorem mean_of_all {x : K} (h : ∀ v ∈ xs, v = x) (hne : xs ≠ []) : mean xs = x := by
  have hlength : (xs.length : K) ≠ 0 := Nat.cast_ne_zero.2 (List.length_pos_iff.2 hne).ne'
  have hsum : xs.sum = xs.length * x := by
    rw [List.eq_replicate_of_mem h, List.sum_replicate, List.length_replicate, nsmul_eq_mul]
  rw [mean, hsum, mul_div_cancel_left₀ x hlength]

theorem mean_pos (h : ∀ v ∈ xs, 0 < v) (hne : xs ≠ []) : 0 < mean xs := by
  have hlength : (0 : K) < xs.length := Nat.cast_pos.2 (List.length_pos_iff.2 hne)
  exact div_pos (List.sum_pos xs h hne) hlength

omit [IsStrictOrderedRing K] in
theorem length_of_all (h : ∀ a ∈ g, ∃ v, value a = some v ∧ 0 < v) :
    (g.filterMap value).length = g.length := by
  rw [List.filterMap_length_eq_length]
  intro a ha
  obtain ⟨v, hv, -⟩ := h a ha
  rw [hv]
  rfl

/-- A group in which every row has a positive value counts in full. -/
theorem weighted_of_all (h : ∀ a ∈ g, ∃ v, value a = some v ∧ 0 < v) :
    weighted value g = (g.filterMap value).sum ∧ weight value g = g.length := by
  by_cases hg : g = []
  · rw [hg]
    exact ⟨weighted_nil, by rw [weight_nil]; simp⟩
  have hlength := length_of_all h
  have hne : g.filterMap value ≠ [] := by
    intro hnil
    rw [hnil] at hlength
    exact hg (List.length_eq_zero_iff.1 hlength.symm)
  have hpos : 0 < mean (g.filterMap value) := by
    apply mean_pos _ hne
    intro v hv
    obtain ⟨a, ha, hav⟩ := List.mem_filterMap.1 hv
    obtain ⟨w, hw, hpos⟩ := h a ha
    rw [hav] at hw
    cases hw
    exact hpos
  refine ⟨?_, if_pos hpos⟩
  rw [weighted, if_pos hpos, ← mean_mul_length, hlength]

/-- One in which all values are one counts with that value. -/
theorem weighted_of_eq {x : K} (h : ∀ v ∈ g.filterMap value, v = x) :
    weighted value g = x * weight value g := by
  unfold weighted weight
  by_cases hpos : 0 < mean (g.filterMap value)
  · have hne : g.filterMap value ≠ [] := by
      intro hnil
      rw [hnil] at hpos
      simp [mean] at hpos
    rw [if_pos hpos, if_pos hpos, mean_of_all h hne]
  · rw [if_neg hpos, if_neg hpos, mul_zero]

theorem weight_nonneg (g : List α) : 0 ≤ weight value g := by
  unfold weight
  split
  · exact Nat.cast_nonneg _
  · exact le_refl 0

-- =========================================================== when it is the mean

section Sufficient

variable [Fintype κ] [DecidableEq κ]

/-- Where no group counts, no value is positive. -/
theorem nonpos_of_weightless {key : α → κ} {x : K} (hall : ∀ v ∈ l.filterMap value, v = x)
    (hweight : ∑ k, weight value (l.filter fun a => key a = k) = 0)
    (hne : l.filterMap value ≠ []) : x ≤ 0 := by
  by_contra hpos
  obtain ⟨v, hv⟩ := List.exists_mem_of_ne_nil _ hne
  obtain ⟨a, ha, hav⟩ := List.mem_filterMap.1 hv
  have hmem : a ∈ l.filter fun b => key b = key a := List.mem_filter.2 ⟨ha, by simp⟩
  have hmean : mean ((l.filter fun b => key b = key a).filterMap value) = x := by
    apply mean_of_all fun w hw => hall w (mem_group hw)
    exact List.ne_nil_of_mem (List.mem_filterMap.2 ⟨a, hmem, hav⟩)
  have hzero : weight value (l.filter fun b => key b = key a) = 0 :=
    (Finset.sum_eq_zero_iff_of_nonneg fun k _ => weight_nonneg _).1 hweight (key a)
      (Finset.mem_univ _)
  rw [weight, hmean, if_pos (not_le.1 hpos)] at hzero
  exact List.ne_nil_of_mem hmem (List.length_eq_zero_iff.1 (Nat.cast_eq_zero.1 hzero))

theorem recombined_of_eq {x : K} (hx : 0 ≤ x) (hall : ∀ v ∈ l.filterMap value, v = x)
    (key : α → κ) : recombined value key l = mean (l.filterMap value) := by
  have hgroups : ∀ k, weighted value (l.filter fun a => key a = k)
      = x * weight value (l.filter fun a => key a = k) := fun k =>
    weighted_of_eq fun v hv => hall v (mem_group hv)
  unfold recombined
  rw [Finset.sum_congr rfl fun k _ => hgroups k, ← Finset.mul_sum]
  by_cases hne : l.filterMap value = []
  · have hnone : ∀ k, weight value (l.filter fun a => key a = k) = 0 := by
      intro k
      have hnil : (l.filter fun a => key a = k).filterMap value = [] := by
        apply List.eq_nil_iff_forall_not_mem.2
        intro v hv
        have hmem := mem_group hv
        rw [hne] at hmem
        cases hmem
      simp [weight, hnil, mean]
    rw [Finset.sum_congr rfl fun k _ => hnone k, hne]
    simp [mean]
  · rw [mean_of_all hall hne]
    by_cases hweight : ∑ k, weight value (l.filter fun a => key a = k) = 0
    · rw [hweight, div_zero]
      exact le_antisymm hx (nonpos_of_weightless hall hweight hne)
    · exact mul_div_cancel_right₀ x hweight

theorem recombined_of_all (hall : ∀ a ∈ l, ∃ v, value a = some v ∧ 0 < v) (key : α → κ) :
    recombined value key l = mean (l.filterMap value) := by
  have hgroups : ∀ k, weighted value (l.filter fun a => key a = k)
        = ((l.filter fun a => key a = k).filterMap value).sum
      ∧ weight value (l.filter fun a => key a = k)
        = ((l.filter fun a => key a = k).length : K) := fun k =>
    weighted_of_all fun a ha => hall a (List.mem_of_mem_filter ha)
  unfold recombined mean
  rw [Finset.sum_congr rfl fun k _ => (hgroups k).1, Finset.sum_congr rfl fun k _ => (hgroups k).2,
    sum_values, sum_lengths, length_of_all hall]

theorem recombined_eq_mean (h : Recombines value l) (key : α → κ) :
    recombined value key l = mean (l.filterMap value) := by
  rcases h with ⟨x, hx, hall⟩ | hall
  · exact recombined_of_eq hx hall key
  · exact recombined_of_all hall key

end Sufficient

-- =========================================================== and when it is not

section Necessary

/-- A group of all rows of one value, and perhaps of rows without one. -/
theorem mean_group {p : α → Bool} {v : K} (hv : v ∈ l.filterMap value)
    (hin : ∀ b, value b = some v → p b = true)
    (hout : ∀ b w, p b = true → value b = some w → w = v) :
    mean ((l.filter p).filterMap value) = v ∧ (l.filter p).filterMap value ≠ [] := by
  have hsome : (l.filter p).filterMap value ≠ [] := by
    obtain ⟨a, ha, hav⟩ := List.mem_filterMap.1 hv
    exact List.ne_nil_of_mem (List.mem_filterMap.2 ⟨a, List.mem_filter.2 ⟨ha, hin a hav⟩, hav⟩)
  refine ⟨mean_of_all ?_ hsome, hsome⟩
  intro w hw
  obtain ⟨b, hb, hbw⟩ := List.mem_filterMap.1 hw
  exact hout b w (List.mem_filter.1 hb).2 hbw

variable [Fintype κ] [DecidableEq κ] {k₀ k₁ : κ}
variable (h : ∀ key : α → κ, recombined value key l = mean (l.filterMap value))
include h

omit [IsStrictOrderedRing K] in
/-- All rows in one group. -/
theorem mean_nonneg_of_forall (hne : k₀ ≠ k₁) : 0 ≤ mean (l.filterMap value) := by
  by_contra hneg
  have hone := h fun a => if (fun _ => true) a then k₀ else k₁
  have hpos : ¬0 < mean (l.filterMap value) := fun hpos => hneg (le_of_lt hpos)
  rw [recombined_split hne] at hone
  simp only [List.filter_true, Bool.not_true, List.filter_false, weighted_nil, weight_nil] at hone
  rw [weighted, if_neg hpos] at hone
  simp only [add_zero, zero_div] at hone
  exact hneg (le_of_eq hone)

/-- The rows of one value, alone: a value that is not positive is zero, and
so is the mean. -/
theorem zero_of_nonpos (hne : k₀ ≠ k₁) {v : K} (hv : v ∈ l.filterMap value) (hnonpos : v ≤ 0) :
    v = 0 ∧ mean (l.filterMap value) = 0 := by
  obtain ⟨p, hp⟩ : ∃ p : α → Bool, ∀ b, p b = true ↔ value b = some v :=
    ⟨fun b => decide (value b = some v), fun b => decide_eq_true_iff⟩
  obtain ⟨hmean, hsome⟩ := mean_group hv (fun b hb => (hp b).2 hb) fun b w hb hw => by
    rw [(hp b).1 hb] at hw
    exact (Option.some.inj hw).symm
  have hout : ¬0 < mean ((l.filter p).filterMap value) := by
    rw [hmean]
    exact not_lt.2 hnonpos
  have hcount : (0 : K) < ((l.filter p).filterMap value).length :=
    Nat.cast_pos.2 (List.length_pos_iff.2 hsome)
  have hnonneg := mean_nonneg_of_forall h hne
  have hone := h fun a => if p a then k₀ else k₁
  rw [recombined_split hne, weighted, weight, if_neg hout, if_neg hout, zero_add, zero_add] at hone
  have htwo := mean_two value p l
  rw [hmean] at htwo
  by_cases hrest : 0 < mean ((l.filter fun a => !p a).filterMap value)
  · -- the rest has the mean of all, so the value is the mean, too
    have hrows : ((l.filter fun a => !p a).length : K) ≠ 0 := by
      rw [Nat.cast_ne_zero]
      intro hnil
      rw [List.length_eq_zero_iff.1 hnil] at hrest
      simp [mean] at hrest
    rw [weighted, weight, if_pos hrest, if_pos hrest, mul_div_cancel_right₀ _ hrows] at hone
    rw [hone] at htwo hrest
    have hequal : v * ((l.filter p).filterMap value).length
        = mean (l.filterMap value) * ((l.filter p).filterMap value).length := by
      linarith
    rw [mul_right_cancel₀ hcount.ne' hequal] at hnonpos
    exact absurd hrest (not_lt.2 hnonpos)
  · rw [weighted, if_neg hrest, zero_div] at hone
    rw [← hone, zero_mul] at htwo
    have hle : mean ((l.filter fun a => !p a).filterMap value)
        * ((l.filter fun a => !p a).filterMap value).length ≤ 0 :=
      mul_nonpos_of_nonpos_of_nonneg (not_lt.1 hrest) (Nat.cast_nonneg _)
    refine ⟨le_antisymm hnonpos ?_, hone.symm⟩
    by_contra hneg
    have hlt := mul_neg_of_neg_of_pos (not_le.1 hneg) hcount
    linarith

/-- They and the rows that have no value: every value is the mean. -/
theorem eq_mean_of_missing (hne : k₀ ≠ k₁) (hpos : ∀ v ∈ l.filterMap value, 0 < v) {b : α}
    (hb : b ∈ l) (hnone : value b = none) {v : K} (hv : v ∈ l.filterMap value) :
    v = mean (l.filterMap value) := by
  obtain ⟨p, hp⟩ : ∃ p : α → Bool, ∀ c, p c = true ↔ value c = some v ∨ value c = none :=
    ⟨fun c => decide (value c = some v ∨ value c = none), fun c => decide_eq_true_iff⟩
  obtain ⟨hmean, -⟩ := mean_group hv (fun c hc => (hp c).2 (Or.inl hc)) fun c w hc hw => by
    rcases (hp c).1 hc with hcv | hcv
    · rw [hcv] at hw
      exact (Option.some.inj hw).symm
    · rw [hcv] at hw
      cases hw
  have hin : 0 < mean ((l.filter p).filterMap value) := by
    rw [hmean]
    exact hpos v hv
  have hrest : ∀ c ∈ (l.filter fun a => !p a), ∃ w, value c = some w ∧ 0 < w := by
    intro c hc
    obtain ⟨hcl, hcp⟩ := List.mem_filter.1 hc
    cases hcw : value c with
    | none =>
        rw [(hp c).2 (Or.inr hcw)] at hcp
        cases hcp
    | some w => exact ⟨w, rfl, hpos w (List.mem_filterMap.2 ⟨c, hcl, hcw⟩)⟩
  obtain ⟨hweighted, hweight⟩ := weighted_of_all hrest
  -- the row without a value weighs, and brings nothing
  have hmore : (((l.filter p).filterMap value).length : K) < (l.filter p).length := by
    rw [Nat.cast_lt]
    refine lt_of_le_of_ne (List.length_filterMap_le _ _) ?_
    intro hall
    have hbp : b ∈ l.filter p := List.mem_filter.2 ⟨hb, (hp b).2 (Or.inr hnone)⟩
    have hsome := List.filterMap_length_eq_length.1 hall b hbp
    rw [hnone] at hsome
    cases hsome
  have hrows : ((l.filter p).length : K) + (l.filter fun a => !p a).length ≠ 0 := by
    have hfirst : (0 : K) ≤ ((l.filter p).filterMap value).length := Nat.cast_nonneg _
    have hsecond : (0 : K) ≤ (l.filter fun a => !p a).length := Nat.cast_nonneg _
    exact (by linarith : (0 : K) < _).ne'
  have hone := h fun a => if p a then k₀ else k₁
  rw [recombined_split hne, weighted, weight, if_pos hin, if_pos hin, hweighted, hweight, hmean,
    div_eq_iff hrows] at hone
  have htwo := mean_two value p l
  rw [mean_mul_length ((l.filter fun a => !p a).filterMap value), hmean,
    length_of_all hrest] at htwo
  have hequal : v * ((l.filter p).length - ((l.filter p).filterMap value).length)
      = mean (l.filterMap value)
        * ((l.filter p).length - ((l.filter p).filterMap value).length) := by
    linarith
  exact mul_right_cancel₀ (sub_ne_zero.2 hmore.ne') hequal

/-- If every grouping into two gives the mean, the rows recombine. -/
theorem recombines_of_forall [Nontrivial κ] : Recombines value l := by
  obtain ⟨k₀, k₁, hne⟩ := exists_pair_ne κ
  by_cases hpos : ∀ v ∈ l.filterMap value, 0 < v
  · by_cases hall : ∀ a ∈ l, ∃ v, value a = some v
    · refine Or.inr fun a ha => ?_
      obtain ⟨v, hv⟩ := hall a ha
      exact ⟨v, hv, hpos v (List.mem_filterMap.2 ⟨a, ha, hv⟩)⟩
    · push Not at hall
      obtain ⟨b, hb, hnone⟩ := hall
      refine Or.inl ⟨mean (l.filterMap value), mean_nonneg_of_forall h hne, fun v hv => ?_⟩
      exact eq_mean_of_missing h hne hpos hb (Option.eq_none_iff_forall_ne_some.2 hnone) hv
  · push Not at hpos
    obtain ⟨v, hv, hnonpos⟩ := hpos
    obtain ⟨-, hmean⟩ := zero_of_nonpos h hne hv hnonpos
    refine Or.inl ⟨0, le_refl 0, fun w hw => ?_⟩
    have hsum : (l.filterMap value).sum = 0 := by
      rw [← mean_mul_length, hmean, zero_mul]
    refine List.all_zero_of_le_zero_le_of_sum_eq_zero ?_ hsum hw
    intro u hu
    by_contra hneg
    exact hneg (le_of_eq (zero_of_nonpos h hne hu (le_of_lt (not_le.1 hneg))).1.symm)

end Necessary

end Zstrategy.Lib
