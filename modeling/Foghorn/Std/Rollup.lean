import Mathlib.Algebra.BigOperators.Ring.Finset
import Foghorn.Std.Aggregate

/-!
# Aggregates of aggregates

A table of partial aggregates is aggregated once more. Counts and sums add up, a maximum
of maxima is the maximum, and a mean comes back when each partial mean is weighted by the
number of values behind it. Nulls are left out on both levels, so the second level is
null exactly when no part has a value.
-/

namespace Foghorn.Std

/-- `SUM` over the values that are present. -/
def total (values : List ℚ) : Option ℚ := if values.isEmpty then none else some values.sum

/-- `num / NULLIF(den, 0)`. -/
def ratio (num den : Option ℚ) : Option ℚ :=
  num.bind fun num => den.bind fun den => if den = 0 then none else some (num / den)

section Levels

variable {α : Type} [LinearOrder α]

/-- The greatest value of two lists is the greater of their greatest. -/
theorem max?_append (left right : List α) :
    (left ++ right).max? = (left.max?.toList ++ right.max?.toList).max? := by
  apply Option.ext
  intro best
  rw [List.max?_eq_some_iff, List.max?_eq_some_iff]
  simp only [List.mem_append, Option.mem_toList]
  constructor
  · rintro ⟨member, greatest⟩
    have below : ∀ values : List α, values ⊆ left ++ right → ∀ top, values.max? = some top →
        top ≤ best := by
      intro values part top isTop
      exact greatest top (List.mem_append.mp (part (List.max?_eq_some_iff.mp isTop).1))
    refine ⟨?_, ?_⟩
    · rcases member with inLeft | inRight
      · refine Or.inl (List.max?_eq_some_iff.mpr ⟨inLeft, ?_⟩)
        exact fun other listed => greatest other (Or.inl listed)
      · refine Or.inr (List.max?_eq_some_iff.mpr ⟨inRight, ?_⟩)
        exact fun other listed => greatest other (Or.inr listed)
    · rintro top (ofLeft | ofRight)
      · exact below left (List.subset_append_left _ _) top ofLeft
      · exact below right (List.subset_append_right _ _) top ofRight
  · rintro ⟨chosen, greatest⟩
    have below : ∀ values : List α, (∀ top, values.max? = some top → top ≤ best) →
        ∀ value ∈ values, value ≤ best := by
      intro values tops value member
      obtain ⟨top, isTop⟩ := Option.isSome_iff_exists.mp (List.isSome_max?_of_mem member)
      exact ((List.max?_eq_some_iff.mp isTop).2 value member).trans (tops top isTop)
    refine ⟨?_, ?_⟩
    · exact chosen.imp List.max?_mem List.max?_mem
    · rintro value (inLeft | inRight)
      · exact below left (fun top isTop => greatest top (Or.inl isTop)) value inLeft
      · exact below right (fun top isTop => greatest top (Or.inr isTop)) value inRight

/-- The greatest value does not depend on the order. -/
theorem max?_eq_of_perm {left right : List α} (perm : left.Perm right) :
    left.max? = right.max? := by
  apply Option.ext
  intro best
  rw [List.max?_eq_some_iff, List.max?_eq_some_iff]
  simp only [perm.mem_iff]

/-- The greatest of the parts' greatest values is the greatest of all. -/
theorem max?_filterMap_max? (parts : List (List α)) :
    (parts.filterMap List.max?).max? = parts.flatten.max? := by
  induction parts with
  | nil => rfl
  | cons part rest ih =>
    rw [List.flatten_cons, max?_append, ← ih]
    cases greatest : part.max? with
    | none =>
      rw [List.filterMap_cons_none greatest]
      cases (rest.filterMap List.max?).max? <;> rfl
    | some top =>
      rw [List.filterMap_cons_some greatest, ← List.singleton_append, max?_append]
      rfl

end Levels

section Mean

private theorem average_eq_some_iff {values : List ℚ} {mean : ℚ} :
    average values = some mean ↔ values ≠ [] ∧ mean = values.sum / values.length := by
  unfold average
  cases values <;> simp [eq_comm]

/-- A mean times the number of its values is their sum. -/
theorem average_mul_length {values : List ℚ} {mean : ℚ} (found : average values = some mean) :
    mean * values.length = values.sum := by
  obtain ⟨nonempty, rfl⟩ := average_eq_some_iff.mp found
  have counted : (values.length : ℚ) ≠ 0 := by
    simpa using nonempty
  exact div_mul_cancel₀ _ counted

private theorem average_getD_mul_length (values : List ℚ) :
    (average values).getD 0 * values.length = values.sum := by
  cases found : average values with
  | none => simp [average_eq_none_iff.mp found]
  | some mean => exact average_mul_length found

/-- The mean of two lists from their own means, zero for an empty one. -/
theorem average_append {left right : List ℚ} (some_ : left ++ right ≠ []) :
    average (left ++ right) =
      some (((average left).getD 0 * left.length + (average right).getD 0 * right.length) /
        (left.length + right.length)) := by
  rw [average_of_ne some_, average_getD_mul_length, average_getD_mul_length, List.sum_append,
    List.length_append, Nat.cast_add]

/-- Two means under two pairs of weights: the same unless the means differ and the weights are in
another proportion. -/
theorem weighted_eq_iff {first second k l m n : ℚ} (weighed : k + l ≠ 0) (counted : m + n ≠ 0) :
    (first * k + second * l) / (k + l) = (first * m + second * n) / (m + n) ↔
      first = second ∨ k * n = l * m := by
  have cross : (first * k + second * l) * (m + n) - (first * m + second * n) * (k + l) =
      (first - second) * (k * n - l * m) := by ring
  rw [div_eq_div_iff weighed counted, ← sub_eq_zero, cross, mul_eq_zero, sub_eq_zero, sub_eq_zero]

/-- Means recombined under other weights than the numbers of their values are the mean of all
exactly when there is a value, and the means agree or the weights are in the same proportion. -/
theorem recombined_average_iff {left right : List ℚ} {k l : ℚ} (weighed : k + l ≠ 0) :
    some (((average left).getD 0 * k + (average right).getD 0 * l) / (k + l)) =
        average (left ++ right) ↔
      left ++ right ≠ [] ∧ ((average left).getD 0 = (average right).getD 0 ∨
        k * right.length = l * left.length) := by
  by_cases empty : left ++ right = []
  · rw [empty]
    exact iff_of_false (Option.some_ne_none _) fun held => held.1 rfl
  · have counted : (left.length : ℚ) + right.length ≠ 0 := by
      rw [← Nat.cast_add, ← List.length_append]
      exact_mod_cast (List.length_pos_of_ne_nil empty).ne'
    rw [average_append empty, Option.some.injEq, weighted_eq_iff weighed counted]
    exact (and_iff_right empty).symm

private theorem isSome_average (values : List ℚ) : (average values).isSome = !values.isEmpty := by
  cases values <;> rfl

/-- The weighted means that are present are the sums of the parts that have values. -/
theorem filterMap_average_mul_length (parts : List (List ℚ)) :
    (parts.filterMap fun part => (average part).map fun mean => mean * (part.length : ℚ)) =
      (parts.filter fun part => !part.isEmpty).map List.sum := by
  induction parts with
  | nil => rfl
  | cons part rest ih =>
    have present := isSome_average part
    cases found : average part with
    | none =>
      rw [found, Option.isSome_none] at present
      rw [List.filterMap_cons_none (by rw [found]; rfl),
        List.filter_cons_of_neg (by simp [← present]), ih]
    | some mean =>
      rw [found, Option.isSome_some] at present
      rw [List.filterMap_cons_some (by rw [found]; rfl),
        List.filter_cons_of_pos (by simp [← present]),
        List.map_cons, ih]
      exact congrArg (· :: _) (average_mul_length found)

/-- The parts' means, each weighted by the number of its values, give the mean of all. -/
theorem ratio_weighted_average (parts : List (List ℚ)) :
    ratio
      (total (parts.filterMap fun part => (average part).map fun mean => mean * (part.length : ℚ)))
      (total ((parts.filter fun part => (average part).isSome).map fun part => (part.length : ℚ))) =
        average parts.flatten := by
  have nonempty : ∀ part ∈ parts.filter fun part => !part.isEmpty, part ≠ [] := by
    intro part member
    simpa using (List.mem_filter.mp member).2
  simp only [isSome_average, filterMap_average_mul_length]
  rw [← List.flatten_filter_not_isEmpty]
  generalize (parts.filter fun part => !part.isEmpty) = kept at nonempty
  cases kept with
  | nil => rfl
  | cons part rest =>
    have some_ : (part :: rest).flatten ≠ [] := by
      intro empty
      exact nonempty part List.mem_cons_self (List.append_eq_nil_iff.mp empty).1
    have counted : ((part :: rest).flatten.length : ℚ) ≠ 0 :=
      Nat.cast_ne_zero.mpr (List.length_eq_zero_iff.not.mpr some_)
    have num : total ((part :: rest).map List.sum) = some (part :: rest).flatten.sum := by
      rw [List.sum_flatten]
      rfl
    have den : total ((part :: rest).map fun part => (part.length : ℚ)) =
        some ((part :: rest).flatten.length : ℚ) := by
      rw [List.length_flatten, Nat.cast_list_sum, List.map_map]
      rfl
    rw [num, den, ratio, Option.bind_some, Option.bind_some, if_neg counted,
      average_eq_some_iff.mpr ⟨some_, rfl⟩]

end Mean

end Foghorn.Std
