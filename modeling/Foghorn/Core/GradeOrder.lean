import Mathlib.Tactic.Linarith
import Mathlib.Tactic.Positivity
import Foghorn.Core.Score

/-!
# Worse evidence and the grade

Every sub-score falls with the evidence against an indexer, their weighted mean falls with
them while the same parts are present, and both penalties only grow. So neither the
composite nor the grade can improve when the evidence gets worse.
-/

namespace Foghorn.Core

open Foghorn.Std

/-- Weights and penalties in range, and thresholds that fall from `A` to `D`. -/
structure ScoringConfig.Sound (cfg : ScoringConfig) : Prop where
  wCorrectness : 0 ≤ cfg.wCorrectness
  wAvailability : 0 ≤ cfg.wAvailability
  wFreshness : 0 ≤ cfg.wFreshness
  wCoverage : 0 ≤ cfg.wCoverage
  sybilPenalty : 0 ≤ cfg.sybilGradePenalty ∧ cfg.sybilGradePenalty ≤ 1
  servingPenalty : 0 ≤ cfg.servingGradePenalty ∧ cfg.servingGradePenalty ≤ 1
  gradeB : cfg.gradeB ≤ cfg.gradeA
  gradeC : cfg.gradeC ≤ cfg.gradeB
  gradeD : cfg.gradeD ≤ cfg.gradeC

/-- Weights that are not negative, and penalties in range. -/
structure ScoringConfig.Weighs (cfg : ScoringConfig) : Prop where
  wCorrectness : 0 ≤ cfg.wCorrectness
  wAvailability : 0 ≤ cfg.wAvailability
  wFreshness : 0 ≤ cfg.wFreshness
  wCoverage : 0 ≤ cfg.wCoverage
  sybilPenalty : 0 ≤ cfg.sybilGradePenalty ∧ cfg.sybilGradePenalty ≤ 1
  servingPenalty : 0 ≤ cfg.servingGradePenalty ∧ cfg.servingGradePenalty ≤ 1

/-- A sound configuration weighs its components. -/
theorem ScoringConfig.Sound.weighs {cfg : ScoringConfig} (sound : cfg.Sound) : cfg.Weighs :=
  ⟨sound.wCorrectness, sound.wAvailability, sound.wFreshness, sound.wCoverage, sound.sybilPenalty,
    sound.servingPenalty⟩

/-- Counts count, and a confidence is a probability. -/
structure ScoreInputs.Counted (i : ScoreInputs) : Prop where
  probesAnswered : 0 ≤ i.probesAnswered
  correctnessFaults : 0 ≤ i.correctnessFaults
  errorObservations : 0 ≤ i.errorObservations
  totalObservations : 0 ≤ i.totalObservations
  qosDeploymentsMeasured : 0 ≤ i.qosDeploymentsMeasured
  qosDeploymentsErroring : 0 ≤ i.qosDeploymentsErroring
  allocationCount : ∀ count ∈ i.allocationCount, 0 ≤ count
  sybilConfidence : ∀ confidence ∈ i.sybilConfidence, 0 ≤ confidence ∧ confidence ≤ 1

/-- `j` has the worse evidence on the same measurements. -/
structure WorseEvidence (i j : ScoreInputs) : Prop where
  probesAnswered : j.probesAnswered = i.probesAnswered
  totalObservations : j.totalObservations = i.totalObservations
  qosDeploymentsMeasured : j.qosDeploymentsMeasured = i.qosDeploymentsMeasured
  correctnessFaults : i.correctnessFaults ≤ j.correctnessFaults
  errorObservations : i.errorObservations ≤ j.errorObservations
  qosDeploymentsErroring : i.qosDeploymentsErroring ≤ j.qosDeploymentsErroring
  measuredBlocksBehind : Option.Rel (· ≤ ·) i.measuredBlocksBehind j.measuredBlocksBehind
  sybilConfidence : i.sybilConfidence.getD 0 ≤ j.sybilConfidence.getD 0
  allocationCount : Option.Rel (· ≤ ·) j.allocationCount i.allocationCount

/-- The grades from the best to the worst. -/
def grades : List String := ["A", "B", "C", "D", "F"]

/-- How far a grade is from the best. -/
def gradeRank (grade : String) : Nat := grades.idxOf grade

section Clamp

variable {low high : ℚ}

private theorem clamp01_nonneg (value : ℚ) : 0 ≤ clamp01 value :=
  le_min (le_max_right _ _) zero_le_one

private theorem clamp01_le_one (value : ℚ) : clamp01 value ≤ 1 := min_le_right _ _

private theorem clamp01_mono (le : low ≤ high) : clamp01 low ≤ clamp01 high :=
  min_le_min_right 1 (max_le_max_right 0 le)

/-- `100 * (1 - clamp01 bad)`, the form of most sub-scores. -/
theorem goodness_bounds {bad : ℚ} (nonneg : 0 ≤ bad) (le : bad ≤ 1) :
    0 ≤ 100 * (1 - bad) ∧ 100 * (1 - bad) ≤ 100 := by
  constructor <;> linarith

private theorem goodness_anti (le : low ≤ high) : 100 * (1 - high) ≤ 100 * (1 - low) := by linarith

variable {few many total : Int}

private theorem clampedShare_nonneg : 0 ≤ clampedShare few total := by
  unfold clampedShare
  split
  · split <;> norm_num
  · exact clamp01_nonneg _

private theorem clampedShare_le_one : clampedShare few total ≤ 1 := by
  unfold clampedShare
  split
  · split <;> norm_num
  · exact clamp01_le_one _

private theorem share_mono (nonneg : 0 ≤ total) (le : few ≤ many) :
    (few / total : ℚ) ≤ many / total :=
  div_le_div_of_nonneg_right (Int.cast_le.mpr le) (Int.cast_nonneg nonneg)

private theorem clampedShare_mono (nonneg : 0 ≤ total) (le : few ≤ many) :
    clampedShare few total ≤ clampedShare many total := by
  unfold clampedShare
  split
  · split
    · rename_i positive
      rw [if_pos (positive.trans_le le)]
    · split <;> norm_num
  · exact clamp01_mono (share_mono nonneg le)

end Clamp

section SubScores

variable {i j : ScoreInputs} (cfg : ScoringConfig)

/-- Worse evidence never raises the correctness score. -/
theorem correctnessScore_anti (counted : i.Counted) (worse : WorseEvidence i j) :
    Option.Rel (· ≤ ·) (correctnessScore j) (correctnessScore i) := by
  unfold correctnessScore
  rw [worse.probesAnswered]
  split
  · exact .none
  · exact .some (goodness_anti (clamp01_mono
      (share_mono counted.probesAnswered worse.correctnessFaults)))

/-- Worse evidence never lowers the share of broken deployments. -/
theorem servingBrokenFraction_mono (counted : i.Counted) (worse : WorseEvidence i j) :
    Option.Rel (· ≤ ·) (servingBrokenFraction i cfg) (servingBrokenFraction j cfg) := by
  unfold servingBrokenFraction
  rw [worse.qosDeploymentsMeasured]
  split
  · exact .none
  · exact .some (clampedShare_mono counted.qosDeploymentsMeasured worse.qosDeploymentsErroring)

private theorem servingBrokenFraction_bounds :
    ∀ fraction ∈ servingBrokenFraction i cfg, 0 ≤ fraction ∧ fraction ≤ 1 := by
  intro fraction found
  unfold servingBrokenFraction at found
  split at found
  · cases found
  · obtain rfl := Option.some.inj found
    exact ⟨clampedShare_nonneg, clampedShare_le_one⟩

/-- Worse evidence never lowers the severity of broken serving. -/
theorem servingBrokenSeverity_mono (counted : i.Counted) (worse : WorseEvidence i j) :
    Option.Rel (· ≤ ·) (servingBrokenSeverity i cfg) (servingBrokenSeverity j cfg) := by
  have reference : (0 : Int) ≤ max cfg.servingBrokenCountRef 1 := zero_le_one.trans (le_max_right _ _)
  have counts := clamp01_mono (share_mono reference worse.qosDeploymentsErroring)
  exact rel_map (fun fractions => max_le_max fractions (by linarith))
    (servingBrokenFraction_mono cfg counted worse)

/-- The severity of broken serving lies between 0 and 1. -/
theorem servingBrokenSeverity_bounds :
    ∀ severity ∈ servingBrokenSeverity i cfg, 0 ≤ severity ∧ severity ≤ 1 := by
  intro severity found
  obtain ⟨fraction, present, rfl⟩ := Option.map_eq_some_iff.mp found
  obtain ⟨nonneg, le_one⟩ := servingBrokenFraction_bounds cfg fraction present
  have capped := clamp01_le_one
    (i.qosDeploymentsErroring / (max cfg.servingBrokenCountRef 1 : Int))
  exact ⟨nonneg.trans (le_max_left _ _), max_le le_one (by linarith)⟩

/-- The shares of good answers that availability is the mean of. -/
theorem availabilityScore_anti (counted : i.Counted) (worse : WorseEvidence i j) :
    Option.Rel (· ≤ ·) (availabilityScore j cfg) (availabilityScore i cfg) := by
  unfold availabilityScore
  rw [worse.totalObservations]
  refine average_mono (List.rel_append ?_ ?_)
  · split
    · exact .cons (goodness_anti (clamp01_mono
        (share_mono counted.totalObservations worse.errorObservations))) .nil
    · exact .nil
  · exact forall₂_toList (rel_map goodness_anti
      (rel_flip (servingBrokenFraction_mono cfg counted worse)))

/-- Worse evidence never raises the freshness score. -/
theorem freshnessScore_anti (worse : WorseEvidence i j) :
    Option.Rel (· ≤ ·) (freshnessScore j cfg) (freshnessScore i cfg) := by
  refine rel_map ?_ (rel_flip worse.measuredBlocksBehind)
  intro less more behind
  refine goodness_anti (clamp01_mono (div_le_div_of_nonneg_right ?_ ?_))
  · exact max_le_max_right 0 behind
  · positivity

/-- Worse evidence never raises the coverage score. -/
theorem coverageScore_mono (worse : WorseEvidence i j) :
    Option.Rel (· ≤ ·) (coverageScore j cfg) (coverageScore i cfg) := by
  have counts := worse.allocationCount
  unfold coverageScore
  generalize i.allocationCount = many at *
  generalize j.allocationCount = few at *
  cases counts with
  | none => exact .none
  | some le =>
    refine .some (mul_le_mul_of_nonneg_left (clamp01_mono (div_le_div_of_nonneg_right ?_ ?_)) ?_)
    · exact Int.cast_le.mpr le
    · positivity
    · norm_num

/-- The correctness score lies between 0 and 100. -/
theorem correctnessScore_bounds : ∀ score ∈ correctnessScore i, 0 ≤ score ∧ score ≤ 100 := by
  intro score found
  unfold correctnessScore at found
  split at found
  · cases found
  · obtain rfl := Option.some.inj found
    exact goodness_bounds (clamp01_nonneg _) (clamp01_le_one _)

/-- The availability score lies between 0 and 100. -/
theorem availabilityScore_bounds : ∀ score ∈ availabilityScore i cfg, 0 ≤ score ∧ score ≤ 100 := by
  refine average_bounds ?_
  intro part member
  rcases List.mem_append.mp member with observed | serving
  · split at observed
    · obtain rfl := List.mem_singleton.mp observed
      exact goodness_bounds (clamp01_nonneg _) (clamp01_le_one _)
    · cases observed
  · obtain ⟨fraction, present, rfl⟩ := Option.map_eq_some_iff.mp (Option.mem_toList.mp serving)
    obtain ⟨nonneg, le_one⟩ := servingBrokenFraction_bounds cfg fraction present
    exact goodness_bounds nonneg le_one

/-- The freshness score lies between 0 and 100. -/
theorem freshnessScore_bounds : ∀ score ∈ freshnessScore i cfg, 0 ≤ score ∧ score ≤ 100 := by
  intro score found
  obtain ⟨_, _, rfl⟩ := Option.map_eq_some_iff.mp found
  exact goodness_bounds (clamp01_nonneg _) (clamp01_le_one _)

/-- The coverage score lies between 0 and 100. -/
theorem coverageScore_bounds : ∀ score ∈ coverageScore i cfg, 0 ≤ score ∧ score ≤ 100 := by
  intro score found
  obtain ⟨count, _, rfl⟩ := Option.map_eq_some_iff.mp found
  have nonneg := clamp01_nonneg (count / ((max cfg.lowCoverageSubgraphs 1 : Int) * 2))
  have le_one := clamp01_le_one (count / ((max cfg.lowCoverageSubgraphs 1 : Int) * 2))
  constructor <;> linarith

end SubScores

section Composite

variable {i j : ScoreInputs} {cfg : ScoringConfig}

/-- The parts of the composite with their weights. -/
def weightedParts (i : ScoreInputs) (cfg : ScoringConfig) : List (Option ℚ × ℚ) :=
  [(correctnessScore i, cfg.wCorrectness), (availabilityScore i cfg, cfg.wAvailability),
    (freshnessScore i cfg, cfg.wFreshness), (coverageScore i cfg, cfg.wCoverage)]

/-- The raw composite is the weighted mean of the components that are present. -/
theorem rawComposite_eq : rawComposite i cfg = weightedMean (weightedParts i cfg) := rfl

/-- Worse evidence never raises the raw composite. -/
theorem rawComposite_anti (sound : cfg.Sound) (counted : i.Counted) (worse : WorseEvidence i j) :
    rawComposite j cfg ≤ rawComposite i cfg := by
  rw [rawComposite_eq, rawComposite_eq]
  refine weightedMean_mono (.cons ⟨rfl, sound.wCorrectness, ?_⟩ (.cons ⟨rfl, sound.wAvailability, ?_⟩
    (.cons ⟨rfl, sound.wFreshness, ?_⟩ (.cons ⟨rfl, sound.wCoverage, ?_⟩ .nil))))
  · exact correctnessScore_anti counted worse
  · exact availabilityScore_anti cfg counted worse
  · exact freshnessScore_anti cfg worse
  · exact coverageScore_mono cfg worse

/-- Every component and weight lies within the bounds of the mean. -/
theorem weighsWithin_parts (weighs : cfg.Weighs) : WeighsWithin 0 100 (weightedParts i cfg) := by
  simp only [WeighsWithin, weightedParts, List.forall_mem_cons, List.not_mem_nil, false_implies,
    implies_true, and_true]
  exact ⟨⟨weighs.wCorrectness, fun _ => correctnessScore_bounds⟩,
    ⟨weighs.wAvailability, fun _ => availabilityScore_bounds cfg⟩,
    ⟨weighs.wFreshness, fun _ => freshnessScore_bounds cfg⟩,
    ⟨weighs.wCoverage, fun _ => coverageScore_bounds cfg⟩⟩

/-- The raw composite lies between 0 and 100. -/
theorem rawComposite_bounds (weighs : cfg.Weighs) :
    0 ≤ rawComposite i cfg ∧ rawComposite i cfg ≤ 100 := by
  rw [rawComposite_eq]
  exact (weighsWithin_parts weighs).mean_of_zero (le_refl 0) (by norm_num)

/-- What a penalty of weight `penalty` leaves of a composite. -/
theorem penalised_mono {low high light heavy penalty : ℚ} (composites : low ≤ high)
    (nonneg : 0 ≤ low) (weights : light ≤ heavy) (bounded : heavy ≤ 1)
    (positive : 0 ≤ penalty) (capped : penalty ≤ 1) :
    low * (1 - heavy * penalty) ≤ high * (1 - light * penalty) := by
  have taken : light * penalty ≤ heavy * penalty := mul_le_mul_of_nonneg_right weights positive
  have within : heavy * penalty ≤ 1 := mul_le_one₀ bounded positive capped
  exact mul_le_mul composites (by linarith) (by linarith) (nonneg.trans composites)

/-- A penalty keeps the composite non-negative and does not raise it. -/
theorem penalised_bounds {composite weight penalty : ℚ} (nonneg : 0 ≤ composite) (weighs : 0 ≤ weight)
    (bounded : weight ≤ 1) (positive : 0 ≤ penalty) (capped : penalty ≤ 1) :
    0 ≤ composite * (1 - weight * penalty) ∧ composite * (1 - weight * penalty) ≤ composite := by
  have taken : 0 ≤ weight * penalty := mul_nonneg weighs positive
  have within : weight * penalty ≤ 1 := mul_le_one₀ bounded positive capped
  exact ⟨mul_nonneg nonneg (by linarith), mul_le_of_le_one_right nonneg (by linarith)⟩

/-- The composite before the penalty for broad serving failure. -/
def sybilPenalised (i : ScoreInputs) (cfg : ScoringConfig) : ℚ :=
  if isSybil i then rawComposite i cfg * (1 - i.sybilConfidence.getD 0 * cfg.sybilGradePenalty)
  else rawComposite i cfg

/-- An absent confidence reads as `0`, which is below the threshold as well. -/
theorem isSybil_iff : isSybil i = true ↔ sybilVerdictConfidence ≤ i.sybilConfidence.getD 0 := by
  unfold isSybil
  cases i.sybilConfidence with
  | none =>
    have below : ¬sybilVerdictConfidence ≤ 0 := by decide +kernel
    exact iff_of_false Bool.false_ne_true below
  | some confidence => exact decide_eq_true_iff

private theorem sybilConfidence_bounds
    (known : ∀ confidence ∈ i.sybilConfidence, 0 ≤ confidence ∧ confidence ≤ 1) :
    0 ≤ i.sybilConfidence.getD 0 ∧ i.sybilConfidence.getD 0 ≤ 1 := by
  cases found : i.sybilConfidence with
  | none => exact ⟨le_refl 0, zero_le_one⟩
  | some confidence => exact known confidence found

/-- The composite after the sybil penalty is non-negative and at most the raw one. -/
theorem sybilPenalised_bounds (weighs : cfg.Weighs)
    (known : ∀ confidence ∈ i.sybilConfidence, 0 ≤ confidence ∧ confidence ≤ 1) :
    0 ≤ sybilPenalised i cfg ∧ sybilPenalised i cfg ≤ rawComposite i cfg := by
  have nonneg := (@rawComposite_bounds i cfg weighs).1
  obtain ⟨low, high⟩ := sybilConfidence_bounds known
  unfold sybilPenalised
  split
  · exact penalised_bounds nonneg low high weighs.sybilPenalty.1 weighs.sybilPenalty.2
  · exact ⟨nonneg, le_refl _⟩

/-- Worse evidence never raises the composite after the sybil penalty. -/
theorem sybilPenalised_anti (sound : cfg.Sound) (counted : i.Counted) (countedToo : j.Counted)
    (worse : WorseEvidence i j) : sybilPenalised j cfg ≤ sybilPenalised i cfg := by
  have raw := rawComposite_anti sound counted worse
  have nonneg : 0 ≤ rawComposite j cfg := (rawComposite_bounds sound.weighs).1
  obtain ⟨positive, capped⟩ := sound.sybilPenalty
  have bounded := (sybilConfidence_bounds countedToo.sybilConfidence).2
  unfold sybilPenalised
  -- What is flagged in `i` is flagged in `j`; a new flag only takes away.
  by_cases flagged : isSybil i = true
  · have flaggedToo : isSybil j = true :=
      isSybil_iff.mpr ((isSybil_iff.mp flagged).trans worse.sybilConfidence)
    rw [if_pos flagged, if_pos flaggedToo]
    exact penalised_mono raw nonneg worse.sybilConfidence bounded positive capped
  · rw [if_neg flagged]
    split
    · have lowered := penalised_mono raw nonneg (sybilConfidence_bounds countedToo.sybilConfidence).1 bounded
        positive capped
      rwa [zero_mul, sub_zero, mul_one] at lowered
    · exact raw

/-- The composite is the sybil-penalised one, lowered by the severity of broken serving. -/
theorem compositeOf_eq : compositeOf i cfg =
    match servingBrokenSeverity i cfg with
    | some severity => sybilPenalised i cfg * (1 - severity * cfg.servingGradePenalty)
    | none => sybilPenalised i cfg := rfl

/-- Worse evidence never raises the composite. -/
theorem compositeOf_anti (sound : cfg.Sound) (counted : i.Counted) (countedToo : j.Counted)
    (worse : WorseEvidence i j) : compositeOf j cfg ≤ compositeOf i cfg := by
  have before := sybilPenalised_anti sound counted countedToo worse
  have bounds := servingBrokenSeverity_bounds (i := j) cfg
  have severities := servingBrokenSeverity_mono cfg counted worse
  rw [compositeOf_eq, compositeOf_eq]
  generalize servingBrokenSeverity i cfg = light at *
  generalize servingBrokenSeverity j cfg = heavy at *
  cases severities with
  | none => exact before
  | some le =>
    exact penalised_mono before (sybilPenalised_bounds sound.weighs countedToo.sybilConfidence).1 le (bounds _ rfl).2
      sound.servingPenalty.1 sound.servingPenalty.2

/-- With thresholds in order a lower composite never gets a better grade. -/
theorem gradeRank_anti {low high : ℚ} (sound : cfg.Sound) (le : low ≤ high) :
    gradeRank (gradeFor high cfg) ≤ gradeRank (gradeFor low cfg) := by
  have b := sound.gradeB
  have c := sound.gradeC
  have d := sound.gradeD
  unfold gradeFor
  split_ifs <;> first | decide | (exfalso; linarith)

end Composite

/-- Worse evidence on the same measurements earns no higher composite and no better grade. -/
theorem judge_anti {i j : ScoreInputs} {cfg : ScoringConfig} (sound : cfg.Sound)
    (counted : i.Counted) (countedToo : j.Counted) (worse : WorseEvidence i j)
    (rated : (judge i cfg).score.rated = true) (ratedToo : (judge j cfg).score.rated = true) :
    (judge j cfg).score.composite ≤ (judge i cfg).score.composite ∧
      gradeRank (judge i cfg).score.grade ≤ gradeRank (judge j cfg).score.grade := by
  rw [judge_of_rated rated, judge_of_rated ratedToo]
  have composites := compositeOf_anti sound counted countedToo worse
  exact ⟨composites, gradeRank_anti sound composites⟩

/-- Ten probes answered alike, near the chainhead, on forty subgraphs. -/
def soundServing : ScoreInputs :=
  { ScoreInputs.default with
    probesAnswered := 10
    totalObservations := 10
    measuredBlocksBehind := some 0
    allocationCount := some 40
    qosDeploymentsMeasured := 4 }

/-- The same probes with faults, errors and lag, by a member of a swarm. -/
def failingServing : ScoreInputs :=
  { soundServing with
    correctnessFaults := 2
    errorObservations := 5
    measuredBlocksBehind := some 1000000
    allocationCount := some 10
    qosDeploymentsErroring := 3
    sybilConfidence := some (9 / 10) }

/-- The indexer with failing deployments scores no better than the sound one. -/
theorem failingServing_not_better :
    (judge failingServing .default).score.composite ≤ (judge soundServing .default).score.composite ∧
      gradeRank (judge soundServing .default).score.grade ≤
        gradeRank (judge failingServing .default).score.grade := by
  refine judge_anti ⟨?_, ?_, ?_, ?_, ?_, ?_, ?_, ?_, ?_⟩ ⟨?_, ?_, ?_, ?_, ?_, ?_, ?_, ?_⟩
    ⟨?_, ?_, ?_, ?_, ?_, ?_, ?_, ?_⟩ ⟨?_, ?_, ?_, ?_, ?_, ?_, .some ?_, ?_, .some ?_⟩ ?_ ?_
  all_goals decide +kernel

end Foghorn.Core
