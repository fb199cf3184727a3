import Mathlib.Data.Rat.Floor
import Mathlib.Data.List.Sort
import Mathlib.Data.List.MinMax
import Mathlib.Algebra.Order.Ring.Rat
import Mathlib.Algebra.Order.Field.Basic
import Mathlib.Algebra.Order.BigOperators.Group.List
import Mathlib.Tactic.Linarith

/-!
# SQL aggregates over exact numbers

`AVG`, `MAX`, `STDDEV_SAMP`, `PERCENTILE_CONT` and the rounding of a double to an
integer, over rationals. Each is null over no rows, and the sample deviation also over
one. A weighted mean leaves out what is absent and divides by the weights of the rest.
-/

namespace Foghorn.Std

/-- `AVG`. -/
def average (values : List ℚ) : Option ℚ :=
  if values.isEmpty then none else some (values.sum / values.length)

/-- `VAR_SAMP`, the square of `STDDEV_SAMP`. -/
def sampleVariance (values : List ℚ) : Option ℚ :=
  if values.length < 2 then none
  else
    let mean := values.sum / values.length
    some ((values.map fun value => (value - mean) ^ 2).sum / (values.length - 1))

/-- `PERCENTILE_CONT(fraction) WITHIN GROUP (ORDER BY value)`: between the two ranks around
`fraction * (n - 1)`, in proportion. -/
def percentileCont (fraction : ℚ) (values : List ℚ) : Option ℚ :=
  let sorted := values.mergeSort (· ≤ ·)
  let rank := fraction * (sorted.length - 1)
  match sorted[rank.floor.toNat]?, sorted[rank.ceil.toNat]? with
  | some low, some high => some (low + (high - low) * (rank - rank.floor))
  | _, _ => none

/-- `MAX` of texts, by code point. -/
def greatestText (values : List String) : Option String :=
  values.foldl (fun best text =>
    match best with
    | some kept => if kept < text then some text else some kept
    | none => some text) none

/-- A double cast to an integer: to the nearest, a half to the even one. -/
def roundHalfEven (value : ℚ) : Int :=
  let below := value.floor
  if value - below < 1 / 2 then below
  else if 1 / 2 < value - below then below + 1
  else if below % 2 = 0 then below else below + 1

/-- The mean of the present values by their weights, `0` when nothing weighs. -/
def weightedMean (parts : List (Option ℚ × ℚ)) : ℚ :=
  let present := parts.filterMap fun (value, weight) => value.map fun value => (value, weight)
  let num := (present.map fun (value, weight) => value * weight).sum
  let den := (present.map Prod.snd).sum
  if 0 < den then num / den else 0

section Average

variable {values others : List ℚ}

/-- Only nothing has no average. -/
theorem average_eq_none_iff : average values = none ↔ values = [] := by
  cases values with
  | nil => exact iff_of_true rfl rfl
  | cons first rest => exact iff_of_false (fun none_ => by cases none_) (List.cons_ne_nil _ _)

/-- The average of something is its sum over its length. -/
theorem average_of_ne (some_ : values ≠ []) : average values = some (values.sum / values.length) := by
  rw [average, if_neg (mt List.isEmpty_iff.mp some_)]

/-- The average does not depend on the order. -/
theorem average_perm (perm : values.Perm others) : average values = average others := by
  by_cases empty : values = []
  · rw [empty] at perm
    rw [empty, perm.nil_eq]
  · have empty' : others ≠ [] := fun nil => empty (nil ▸ perm).eq_nil
    rw [average_of_ne empty, average_of_ne empty', perm.sum_eq, perm.length_eq]

/-- More values leave the mean as it is exactly when their own mean is the same. -/
theorem average_append_eq_iff : average (values ++ others) = average values ↔
    others = [] ∨ average others = average values := by
  by_cases empty : others = []
  · simp [empty]
  by_cases nothing : values = []
  · rw [nothing, List.nil_append, or_iff_right empty]
  have counted : (0 : ℚ) < values.length := by
    exact_mod_cast List.length_pos_iff.mpr nothing
  have countedOthers : (0 : ℚ) < others.length := by
    exact_mod_cast List.length_pos_iff.mpr empty
  have together : values ++ others ≠ [] := fun nil => nothing (List.append_eq_nil_iff.mp nil).1
  rw [or_iff_right empty, average_of_ne together, average_of_ne nothing, average_of_ne empty,
    Option.some.injEq, Option.some.injEq, List.sum_append, List.length_append, Nat.cast_add,
    div_eq_div_iff (by positivity) counted.ne', div_eq_div_iff countedOthers.ne' counted.ne']
  constructor
  · intro same
    linarith
  · intro same
    linarith

/-- Values that are all at most the others leave the mean no greater. -/
theorem average_append_le {mean whole : ℚ} (below : ∀ value ∈ values, ∀ other ∈ others, other ≤ value)
    (first : average values = some mean) (both : average (values ++ others) = some whole) :
    whole ≤ mean := by
  have some_ : values ≠ [] := by
    rintro rfl
    cases first
  have counted : (0 : ℚ) < values.length := by
    exact_mod_cast List.length_pos_iff.mpr some_
  rw [average_of_ne some_, Option.some.injEq] at first
  rw [average_of_ne (List.append_ne_nil_of_left_ne_nil some_ _), Option.some.injEq, List.sum_append,
    List.length_append, Nat.cast_add] at both
  -- Every other value is at most the mean, which is at least the smallest of the values.
  have each : ∀ other ∈ others, other ≤ mean := by
    intro other member
    have bound := List.card_nsmul_le_sum values other fun value listed => below value listed other member
    rw [nsmul_eq_mul] at bound
    rw [← first, le_div_iff₀ counted, mul_comm]
    exact bound
  have rest := List.sum_le_card_nsmul others mean each
  rw [nsmul_eq_mul] at rest
  have total : values.sum = mean * values.length := (div_eq_iff counted.ne').mp first
  rw [← both, div_le_iff₀ (by positivity), total]
  linarith

end Average

section Order

section Rel

variable {α β γ δ : Type} {r : α → β → Prop} {s : γ → δ → Prop} {left : Option α}
  {right : Option β}

/-- Optional values stay related under maps that respect the relations. -/
theorem rel_map {f : α → γ} {g : β → δ} (maps : ∀ {a b}, r a b → s (f a) (g b))
    (related : Option.Rel r left right) : Option.Rel s (left.map f) (right.map g) := by
  cases related with
  | none => exact .none
  | some holds => exact .some (maps holds)

/-- Related optional values are related the other way round by the flipped relation. -/
theorem rel_flip (related : Option.Rel r left right) :
    Option.Rel (fun b a => r a b) right left := by
  cases related with
  | none => exact .none
  | some holds => exact .some holds

/-- Related optional values give related lists. -/
theorem forall₂_toList (related : Option.Rel r left right) :
    List.Forall₂ r left.toList right.toList := by
  cases related with
  | none => exact .nil
  | some holds => exact .cons holds .nil

end Rel

/-- Means over lists of one length keep the order of their entries. -/
theorem average_mono {low high : List ℚ} (entries : List.Forall₂ (· ≤ ·) low high) :
    Option.Rel (· ≤ ·) (average low) (average high) := by
  have lengths := entries.length_eq
  unfold average
  cases entries with
  | nil => exact .none
  | cons head tail =>
    refine .some ?_
    rw [lengths]
    exact div_le_div_of_nonneg_right (List.Forall₂.cons head tail).sum_le_sum (Nat.cast_nonneg _)

/-- A mean lies between the bounds of its entries. -/
theorem average_bounds {values : List ℚ} {least most : ℚ}
    (entries : ∀ value ∈ values, least ≤ value ∧ value ≤ most) :
    ∀ mean ∈ average values, least ≤ mean ∧ mean ≤ most := by
  intro mean found
  unfold average at found
  split at found
  · cases found
  · rename_i nonempty
    obtain rfl := Option.some.inj found
    have positive : (0 : ℚ) < values.length := by
      rw [Nat.cast_pos, List.length_pos_iff]
      exact fun empty => nonempty (by rw [empty]; rfl)
    have below := List.card_nsmul_le_sum values least fun value member => (entries value member).1
    have above := List.sum_le_card_nsmul values most fun value member => (entries value member).2
    rw [nsmul_eq_mul] at below above
    rw [le_div_iff₀ positive, div_le_iff₀ positive, mul_comm least, mul_comm most]
    exact ⟨below, above⟩

/-- How the parts of a lower mean compare to those of a higher one: the same weights, and
the same parts present. -/
def PartLe (low high : Option ℚ × ℚ) : Prop :=
  low.2 = high.2 ∧ 0 ≤ high.2 ∧ Option.Rel (· ≤ ·) low.1 high.1

variable {low high : List (Option ℚ × ℚ)}

private theorem present_of_partLe (parts : List.Forall₂ PartLe low high) :
    List.Forall₂ (fun l h : ℚ × ℚ => l.1 ≤ h.1 ∧ l.2 = h.2 ∧ 0 ≤ h.2)
      (low.filterMap fun (value, weight) => value.map fun value => (value, weight))
      (high.filterMap fun (value, weight) => value.map fun value => (value, weight)) := by
  refine List.rel_filterMap ?_ parts
  rintro ⟨left, _⟩ ⟨right, weight⟩ ⟨rfl, nonneg, values⟩
  cases values with
  | none => exact .none
  | some le => exact .some ⟨le, rfl, nonneg⟩

/-- A weighted mean is monotone in the values that are present. -/
theorem weightedMean_mono (parts : List.Forall₂ PartLe low high) :
    weightedMean low ≤ weightedMean high := by
  have present := present_of_partLe parts
  unfold weightedMean
  generalize (low.filterMap fun (value, weight) => value.map fun value => (value, weight)) = l at *
  generalize (high.filterMap fun (value, weight) => value.map fun value => (value, weight)) = h at *
  have weights : l.map Prod.snd = h.map Prod.snd := by
    induction present with
    | nil => rfl
    | cons head _ ih => rw [List.map_cons, List.map_cons, head.2.1, ih]
  have products : (l.map fun (value, weight) => value * weight).sum ≤
      (h.map fun (value, weight) => value * weight).sum := by
    refine List.Forall₂.sum_le_sum (List.forall₂_map_left_iff.mpr (List.forall₂_map_right_iff.mpr ?_))
    refine present.imp ?_
    rintro ⟨left, _⟩ ⟨right, weight⟩ ⟨le, rfl, nonneg⟩
    exact mul_le_mul_of_nonneg_right le nonneg
  simp only [weights]
  split
  · rename_i weighs
    exact div_le_div_of_nonneg_right products weighs.le
  · exact le_refl 0

end Order

section Mean

/-- The present values times their weights. -/
def weightedTotal : List (Option ℚ × ℚ) → ℚ
  | [] => 0
  | (some value, weight) :: rest => value * weight + weightedTotal rest
  | (none, _) :: rest => weightedTotal rest

/-- The weights of the present values. -/
def presentWeight : List (Option ℚ × ℚ) → ℚ
  | [] => 0
  | (some _, weight) :: rest => weight + presentWeight rest
  | (none, _) :: rest => presentWeight rest

variable {parts before after : List (Option ℚ × ℚ)} {least most value weight : ℚ}

/-- The weighted mean is the total over the weight that is present, and 0 without any. -/
theorem weightedMean_eq (parts : List (Option ℚ × ℚ)) : weightedMean parts =
    if 0 < presentWeight parts then weightedTotal parts / presentWeight parts else 0 := by
  have sums : ((parts.filterMap fun (value, weight) => value.map fun value => (value, weight)).map
      fun (value, weight) => value * weight).sum = weightedTotal parts ∧
      ((parts.filterMap fun (value, weight) => value.map fun value => (value, weight)).map
        Prod.snd).sum = presentWeight parts := by
    induction parts with
    | nil => exact ⟨rfl, rfl⟩
    | cons part rest ih =>
      obtain ⟨value, weight⟩ := part
      cases value with
      | none => exact ih
      | some value =>
        obtain ⟨total, present⟩ := ih
        exact ⟨congrArg (value * weight + ·) total, congrArg (weight + ·) present⟩
  rw [weightedMean, sums.1, sums.2]

private theorem weightedTotal_append :
    weightedTotal (before ++ after) = weightedTotal before + weightedTotal after := by
  induction before with
  | nil => exact (zero_add _).symm
  | cons part rest ih =>
    obtain ⟨value, weight⟩ := part
    cases value with
    | none => exact ih
    | some value => rw [List.cons_append, weightedTotal, weightedTotal, ih, add_assoc]

private theorem presentWeight_append :
    presentWeight (before ++ after) = presentWeight before + presentWeight after := by
  induction before with
  | nil => exact (zero_add _).symm
  | cons part rest ih =>
    obtain ⟨value, weight⟩ := part
    cases value with
    | none => exact ih
    | some value => rw [List.cons_append, presentWeight, presentWeight, ih, add_assoc]

/-- The weights are not negative, and what weighs lies within bounds. -/
def WeighsWithin (least most : ℚ) (parts : List (Option ℚ × ℚ)) : Prop :=
  ∀ part ∈ parts, 0 ≤ part.2 ∧ (0 < part.2 → ∀ value ∈ part.1, least ≤ value ∧ value ≤ most)

/-- The weighted total lies within the bounds times the weight that is present. -/
theorem WeighsWithin.totals (within : WeighsWithin least most parts) :
    0 ≤ presentWeight parts ∧ least * presentWeight parts ≤ weightedTotal parts ∧
      weightedTotal parts ≤ most * presentWeight parts := by
  induction parts with
  | nil => simp [presentWeight, weightedTotal]
  | cons part rest ih =>
    obtain ⟨first, others⟩ := List.forall_mem_cons.mp within
    obtain ⟨weights, below, above⟩ := ih others
    obtain ⟨value, weight⟩ := part
    cases value with
    | none => exact ⟨weights, below, above⟩
    | some value =>
      have nonneg : 0 ≤ weight := first.1
      have products : least * weight ≤ value * weight ∧ value * weight ≤ most * weight := by
        rcases nonneg.eq_or_lt with zero | positive
        · rw [← zero, mul_zero, mul_zero, mul_zero]
          exact ⟨le_refl 0, le_refl 0⟩
        · obtain ⟨low, high⟩ := first.2 positive value rfl
          exact ⟨mul_le_mul_of_nonneg_right low nonneg, mul_le_mul_of_nonneg_right high nonneg⟩
      simp only [presentWeight, weightedTotal, mul_add]
      exact ⟨add_nonneg nonneg weights, add_le_add products.1 below, add_le_add products.2 above⟩

/-- A weighted mean of something lies between the bounds of what weighs. -/
theorem WeighsWithin.mean (within : WeighsWithin least most parts) (weighs : 0 < presentWeight parts) :
    least ≤ weightedMean parts ∧ weightedMean parts ≤ most := by
  obtain ⟨_, below, above⟩ := within.totals
  rw [weightedMean_eq, if_pos weighs, le_div_iff₀ weighs, div_le_iff₀ weighs]
  exact ⟨below, above⟩

/-- Where nothing weighs the mean is `0`. -/
theorem WeighsWithin.mean_of_zero (within : WeighsWithin least most parts) (low : least ≤ 0)
    (high : 0 ≤ most) : least ≤ weightedMean parts ∧ weightedMean parts ≤ most := by
  by_cases weighs : 0 < presentWeight parts
  · exact within.mean weighs
  · rw [weightedMean_eq, if_neg weighs]
    exact ⟨low, high⟩

/-- With a value of positive weight the weight that is present is positive. -/
theorem WeighsWithin.presentWeight_pos (within : WeighsWithin least most parts) {part : Option ℚ × ℚ}
    (member : part ∈ parts) (present : value ∈ part.1) (weighs : 0 < part.2) :
    0 < presentWeight parts := by
  obtain ⟨before, after, rfl⟩ := List.append_of_mem member
  obtain ⟨found, weight⟩ := part
  obtain rfl := Option.mem_def.mp present
  have front : WeighsWithin least most before := fun part inside =>
    within part (List.mem_append_left _ inside)
  have back : WeighsWithin least most after := fun part inside =>
    within part (List.mem_append_right _ (List.mem_cons_of_mem _ inside))
  rw [presentWeight_append, presentWeight]
  exact add_pos_of_nonneg_of_pos front.totals.1 (add_pos_of_pos_of_nonneg weighs back.totals.1)

/-- What is missing counts for nothing. -/
theorem weightedMean_missing :
    weightedMean (before ++ (none, weight) :: after) = weightedMean (before ++ after) := by
  rw [weightedMean_eq, weightedMean_eq, presentWeight_append, weightedTotal_append,
    presentWeight_append, weightedTotal_append]
  rfl

/-- A part at the mean of the others does not move it. -/
theorem weightedMean_insert (nonneg : 0 ≤ weight) (weighs : 0 < presentWeight (before ++ after)) :
    weightedMean (before ++ (some (weightedMean (before ++ after)), weight) :: after) =
      weightedMean (before ++ after) := by
  have others : weightedTotal (before ++ after) =
      weightedMean (before ++ after) * presentWeight (before ++ after) := by
    rw [weightedMean_eq, if_pos weighs, div_mul_cancel₀ _ weighs.ne']
  rw [presentWeight_append] at weighs others
  rw [weightedTotal_append] at others
  have total : 0 < presentWeight before + (weight + presentWeight after) := by linarith
  rw [weightedMean_eq (before ++ _ :: after), presentWeight_append, weightedTotal_append, presentWeight,
    weightedTotal, if_pos total, div_eq_iff total.ne']
  linarith

end Mean

end Foghorn.Std
