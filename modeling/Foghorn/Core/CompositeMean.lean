import Foghorn.Core.GradeOrder

/-!
# The composite is a renormalised mean

A sub-score that is missing counts for nothing: the weights of the others make up the whole. So
the composite lies among the sub-scores that weigh, the penalties only lower it, and to drop a
sub-score that stands at the mean of the others changes nothing.
-/

namespace Foghorn.Core

open Foghorn.Std

/-- The sub-scores of a score with their weights. -/
def IndexerScore.parts (score : IndexerScore) (cfg : ScoringConfig) : List (Option ℚ × ℚ) :=
  [(score.correctnessScore, cfg.wCorrectness), (score.availabilityScore, cfg.wAvailability),
    (score.freshnessScore, cfg.wFreshness), (score.coverageScore, cfg.wCoverage)]

/-- The sub-scores that are present. -/
def IndexerScore.present (score : IndexerScore) : List ℚ :=
  [score.correctnessScore, score.availabilityScore, score.freshnessScore,
    score.coverageScore].filterMap id

/-- The present sub-scores of positive weight. -/
def IndexerScore.weighing (score : IndexerScore) (cfg : ScoringConfig) : List ℚ :=
  (score.parts cfg).filterMap fun part => if 0 < part.2 then part.1 else none

/-- The parts but freshness. -/
def IndexerScore.partsButFreshness (score : IndexerScore) (cfg : ScoringConfig) :
    List (Option ℚ × ℚ) :=
  [(score.correctnessScore, cfg.wCorrectness), (score.availabilityScore, cfg.wAvailability),
    (score.coverageScore, cfg.wCoverage)]

/-- The parts but coverage. -/
def IndexerScore.partsButCoverage (score : IndexerScore) (cfg : ScoringConfig) :
    List (Option ℚ × ℚ) :=
  [(score.correctnessScore, cfg.wCorrectness), (score.availabilityScore, cfg.wAvailability),
    (score.freshnessScore, cfg.wFreshness)]

/-- Whether broad serving failure takes something from the composite. -/
def ServingPenalised (i : ScoreInputs) (cfg : ScoringConfig) : Prop :=
  ∃ severity ∈ servingBrokenSeverity i cfg, severity * cfg.servingGradePenalty ≠ 0

section Bounds

variable {i : ScoreInputs} {cfg : ScoringConfig} {value : ℚ}

private theorem parts_ratedScore : (ratedScore i cfg).parts cfg = weightedParts i cfg := rfl

private theorem mem_present {score : IndexerScore} : value ∈ score.present ↔
    ∃ part ∈ score.parts cfg, value ∈ part.1 := by
  simp [IndexerScore.present, IndexerScore.parts, eq_comm]

private theorem mem_weighing {score : IndexerScore} : value ∈ score.weighing cfg ↔
    ∃ part ∈ score.parts cfg, 0 < part.2 ∧ value ∈ part.1 := by
  simp only [IndexerScore.weighing, List.mem_filterMap, Option.ite_none_right_eq_some, Option.mem_def]

/-- Every component that is present lies between 0 and 100. -/
theorem present_bounds (member : value ∈ (ratedScore i cfg).present) : 0 ≤ value ∧ value ≤ 100 := by
  obtain ⟨part, listed, found⟩ := (@mem_present cfg value _).mp member
  rw [parts_ratedScore] at listed
  simp only [weightedParts, List.mem_cons, List.not_mem_nil, or_false] at listed
  rcases listed with rfl | rfl | rfl | rfl
  · exact correctnessScore_bounds value found
  · exact availabilityScore_bounds cfg value found
  · exact freshnessScore_bounds cfg value found
  · exact coverageScore_bounds cfg value found

/-- The composite before the penalties lies among what weighs. -/
theorem rawComposite_among (weighs : cfg.Weighs) {least most : ℚ}
    (bounds : ∀ value ∈ (ratedScore i cfg).weighing cfg, least ≤ value ∧ value ≤ most)
    (some : (ratedScore i cfg).weighing cfg ≠ []) :
    least ≤ rawComposite i cfg ∧ rawComposite i cfg ≤ most := by
  have within : WeighsWithin least most (weightedParts i cfg) := by
    intro part listed
    refine ⟨((weighsWithin_parts weighs) part listed).1, fun positive value found => ?_⟩
    exact bounds value (mem_weighing.mpr ⟨part, listed, positive, found⟩)
  obtain ⟨value, member⟩ := List.exists_mem_of_ne_nil _ some
  obtain ⟨part, listed, positive, found⟩ := mem_weighing.mp member
  rw [rawComposite_eq]
  exact within.mean (within.presentWeight_pos listed found positive)

/-- The composite is never negative and never above the raw one. -/
theorem compositeOf_bounds (weighs : cfg.Weighs)
    (known : ∀ confidence ∈ i.sybilConfidence, 0 ≤ confidence ∧ confidence ≤ 1) :
    0 ≤ compositeOf i cfg ∧ compositeOf i cfg ≤ rawComposite i cfg := by
  obtain ⟨nonneg, le_raw⟩ := @sybilPenalised_bounds i cfg weighs known
  rw [compositeOf_eq]
  cases found : servingBrokenSeverity i cfg with
  | none => exact ⟨nonneg, le_raw⟩
  | some severity =>
    obtain ⟨low, high⟩ := servingBrokenSeverity_bounds cfg severity found
    obtain ⟨above, below⟩ := penalised_bounds nonneg low high weighs.servingPenalty.1
      weighs.servingPenalty.2
    exact ⟨above, below.trans le_raw⟩

private theorem mem_present_of_weighing {score : IndexerScore}
    (member : value ∈ score.weighing cfg) :
    value ∈ score.present := by
  obtain ⟨part, listed, _, found⟩ := mem_weighing.mp member
  exact mem_present.mpr ⟨part, listed, found⟩

/-- Without a rating no sub-score is present. -/
theorem weighing_unratedScore : (unratedScore i cfg).weighing cfg = [] := by
  refine List.eq_nil_iff_forall_not_mem.mpr fun value member => ?_
  cases mem_present_of_weighing member

/-- Where something weighs, the composite is at most the largest present sub-score. -/
theorem compositeOf_le_greatest (weighs : cfg.Weighs)
    (known : ∀ confidence ∈ i.sybilConfidence, 0 ≤ confidence ∧ confidence ≤ 1)
    (some : (ratedScore i cfg).weighing cfg ≠ [])
    (greatest : IsGreatest { value | value ∈ (ratedScore i cfg).present } value) :
    compositeOf i cfg ≤ value := by
  have bounds : ∀ part ∈ (ratedScore i cfg).weighing cfg, 0 ≤ part ∧ part ≤ value := by
    intro part member
    have present := mem_present_of_weighing member
    exact ⟨(present_bounds present).1, greatest.2 present⟩
  exact (compositeOf_bounds weighs known).2.trans (rawComposite_among weighs bounds some).2

/-- Without a sybil flag and a serving penalty the composite is the raw one. -/
theorem compositeOf_unpenalised (unflagged : isSybil i = false) (spared : ¬ ServingPenalised i cfg) :
    compositeOf i cfg = rawComposite i cfg := by
  have before : sybilPenalised i cfg = rawComposite i cfg := by
    rw [sybilPenalised, unflagged]
    rfl
  rw [compositeOf_eq, before]
  cases found : servingBrokenSeverity i cfg with
  | none => rfl
  | some severity =>
    have zero : severity * cfg.servingGradePenalty = 0 := by
      by_contra taken
      exact spared ⟨severity, found, taken⟩
    simp only [zero, sub_zero, mul_one]

end Bounds

section Neutral

variable {i j : ScoreInputs} {cfg : ScoringConfig}

/-- What the composite depends on besides its mean. -/
theorem compositeOf_congr_raw (raw : rawComposite i cfg = rawComposite j cfg)
    (confidence : i.sybilConfidence = j.sybilConfidence)
    (severity : servingBrokenSeverity i cfg = servingBrokenSeverity j cfg) :
    compositeOf i cfg = compositeOf j cfg := by
  have flags : isSybil i = isSybil j := congrArg (Option.any _) confidence
  have before : sybilPenalised i cfg = sybilPenalised j cfg := by
    rw [sybilPenalised, sybilPenalised, raw, confidence, flags]
  rw [compositeOf_eq, compositeOf_eq, severity, before]

/-- Freshness at the mean of the others is not missed. -/
theorem compositeOf_without_freshness (weighs : cfg.Weighs)
    (mean : weightedMean ((ratedScore i cfg).partsButFreshness cfg) ∈ freshnessScore i cfg)
    (positive : 0 < presentWeight ((ratedScore i cfg).partsButFreshness cfg)) :
    compositeOf { i with measuredBlocksBehind := none } cfg = compositeOf i cfg := by
  refine compositeOf_congr_raw ?_ rfl rfl
  have inserted := @weightedMean_insert
    [(correctnessScore i, cfg.wCorrectness), (availabilityScore i cfg, cfg.wAvailability)]
    [(coverageScore i cfg, cfg.wCoverage)] cfg.wFreshness weighs.wFreshness positive
  have missing := @weightedMean_missing
    [(correctnessScore i, cfg.wCorrectness), (availabilityScore i cfg, cfg.wAvailability)]
    [(coverageScore i cfg, cfg.wCoverage)] cfg.wFreshness
  rw [rawComposite_eq, rawComposite_eq, weightedParts, weightedParts, Option.mem_def.mp mean]
  exact missing.trans inserted.symm

/-- Nor is coverage. -/
theorem compositeOf_without_coverage (weighs : cfg.Weighs)
    (mean : weightedMean ((ratedScore i cfg).partsButCoverage cfg) ∈ coverageScore i cfg)
    (positive : 0 < presentWeight ((ratedScore i cfg).partsButCoverage cfg)) :
    compositeOf { i with allocationCount := none } cfg = compositeOf i cfg := by
  refine compositeOf_congr_raw ?_ rfl rfl
  have inserted := @weightedMean_insert ((ratedScore i cfg).partsButCoverage cfg) [] cfg.wCoverage
    weighs.wCoverage positive
  have missing := @weightedMean_missing ((ratedScore i cfg).partsButCoverage cfg) [] cfg.wCoverage
  rw [rawComposite_eq, rawComposite_eq, weightedParts, weightedParts, Option.mem_def.mp mean]
  exact missing.trans inserted.symm

end Neutral

/-- Every sub-score and the composite lie between 0 and 100, the composite among the sub-scores
that weigh unless a penalty lowers it, and a sub-score at the mean of the others can go. -/
theorem composite_is_renormalised_mean {cfg : ScoringConfig} {i : ScoreInputs} (weighs : cfg.Weighs)
    (known : ∀ confidence ∈ i.sybilConfidence, 0 ≤ confidence ∧ confidence ≤ 1) :
    let score := (judge i cfg).score
    let unmeasured := (judge { i with measuredBlocksBehind := none } cfg).score
    let unallocated := (judge { i with allocationCount := none } cfg).score
    (∀ value ∈ score.present, 0 ≤ value ∧ value ≤ 100) ∧
    (0 ≤ score.composite ∧ score.composite ≤ 100) ∧
    (score.weighing cfg ≠ [] → ∀ largest, IsGreatest { value | value ∈ score.present } largest →
      score.composite ≤ largest) ∧
    (score.sybilFlag = false → ¬ ServingPenalised i cfg → ∀ smallest largest,
      IsLeast { value | value ∈ score.weighing cfg } smallest →
        IsGreatest { value | value ∈ score.weighing cfg } largest →
          smallest ≤ score.composite ∧ score.composite ≤ largest) ∧
    (score.rated = true → unmeasured.rated = true →
      weightedMean (score.partsButFreshness cfg) ∈ score.freshnessScore →
        0 < presentWeight (score.partsButFreshness cfg) → unmeasured.composite = score.composite) ∧
    (score.rated = true → unallocated.rated = true →
      weightedMean (score.partsButCoverage cfg) ∈ score.coverageScore →
        0 < presentWeight (score.partsButCoverage cfg) → unallocated.composite = score.composite) := by
  intro score unmeasured unallocated
  by_cases rated : score.rated = true
  · have judged : score = ratedScore i cfg := congrArg ScoreOutcome.score (judge_of_rated rated)
    obtain ⟨nonneg, le_raw⟩ := @compositeOf_bounds i cfg weighs known
    rw [judged]
    refine ⟨fun value => present_bounds, ⟨nonneg, le_raw.trans (rawComposite_bounds weighs).2⟩, ?_, ?_,
      ?_, ?_⟩
    · intro some largest greatest
      exact compositeOf_le_greatest weighs known some greatest
    · intro unflagged spared smallest largest least greatest
      have plain : (ratedScore i cfg).composite = rawComposite i cfg :=
        compositeOf_unpenalised unflagged spared
      rw [plain]
      exact rawComposite_among weighs (fun value member => ⟨least.2 member, greatest.2 member⟩)
        (List.ne_nil_of_mem least.1)
    · intro _ ratedToo mean positive
      have without : unmeasured = ratedScore { i with measuredBlocksBehind := none } cfg :=
        congrArg ScoreOutcome.score (judge_of_rated ratedToo)
      rw [without]
      exact compositeOf_without_freshness weighs mean positive
    · intro _ ratedToo mean positive
      have without : unallocated = ratedScore { i with allocationCount := none } cfg :=
        congrArg ScoreOutcome.score (judge_of_rated ratedToo)
      rw [without]
      exact compositeOf_without_coverage weighs mean positive
  · have judged : score = unratedScore i cfg := by
      have unrated : isRated i cfg = false := by rwa [← rated_judge, ← Bool.not_eq_true]
      simp only [score, judge, unrated, Bool.false_eq_true, if_false]
    have absent : score.rated ≠ true := rated
    rw [judged]
    refine ⟨fun value member => ?_, ⟨le_refl 0, by norm_num [unratedScore]⟩, ?_, ?_, ?_, ?_⟩
    · cases member
    · exact fun some => absurd weighing_unratedScore some
    · intro _ _ smallest largest least
      have member := least.1
      rw [weighing_unratedScore] at member
      cases member
    · exact fun ratedToo => absurd (judged ▸ ratedToo) absent
    · exact fun ratedToo => absurd (judged ▸ ratedToo) absent

/-- Where every sub-score is 100, freshness and coverage can go. -/
theorem composite_is_renormalised_mean_soundServing :
    (judge { soundServing with measuredBlocksBehind := none } .default).score.composite =
        (judge soundServing .default).score.composite ∧
      (judge { soundServing with allocationCount := none } .default).score.composite =
        (judge soundServing .default).score.composite := by
  have weighs : ScoringConfig.default.Weighs := by
    refine ⟨?_, ?_, ?_, ?_, ?_, ?_⟩ <;> decide +kernel
  have known : ∀ confidence ∈ soundServing.sybilConfidence, 0 ≤ confidence ∧ confidence ≤ 1 := by
    intro confidence found
    cases found
  obtain ⟨_, _, _, _, freshness, coverage⟩ := composite_is_renormalised_mean weighs known
  refine ⟨freshness ?_ ?_ ?_ ?_, coverage ?_ ?_ ?_ ?_⟩
  all_goals decide +kernel

end Foghorn.Core
