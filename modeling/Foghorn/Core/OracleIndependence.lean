import Foghorn.Core.Score

/-!
# The canonical oracle and the grade

Three fields of the inputs come from the canonical oracle. Its lag is read nowhere. Its
success rate and query count are read by some rules, whose findings are named here; the
grade, and every other finding of a rated indexer, is the same whatever they say.
-/

namespace Foghorn.Core

/-- `j` is `i` with other figures from the canonical oracle. -/
def DifferInOracle (i j : ScoreInputs) : Prop :=
  j = { i with
    qosSuccessRate := j.qosSuccessRate
    qosQueryCount := j.qosQueryCount
    qosBlocksBehind := j.qosBlocksBehind }

/-- The verdicts whose rules read the oracle. -/
def oracleVerdicts : List String := ["serving-no-data", "leech", "reo-ineligible-candidate"]

/-- The items whose rules read the oracle. -/
def oracleAttention : List String := ["serving-no-data"]

/-- Two judgements that agree on everything the oracle must not move. -/
structure SameGrade (left right : ScoreOutcome) : Prop where
  composite : left.score.composite = right.score.composite
  grade : left.score.grade = right.score.grade
  correctnessScore : left.score.correctnessScore = right.score.correctnessScore
  availabilityScore : left.score.availabilityScore = right.score.availabilityScore
  freshnessScore : left.score.freshnessScore = right.score.freshnessScore
  coverageScore : left.score.coverageScore = right.score.coverageScore
  valueScore : left.score.valueScore = right.score.valueScore
  subScores : left.score.subScores = right.score.subScores
  sybilFlag : left.score.sybilFlag = right.score.sybilFlag
  sybilClusterId : left.score.sybilClusterId = right.score.sybilClusterId
  probeCount : left.score.probeCount = right.score.probeCount
  verdicts : left.verdicts.filter (fun verdict => verdict.kind ∉ oracleVerdicts) =
    right.verdicts.filter fun verdict => verdict.kind ∉ oracleVerdicts
  attention : left.attention.filter (fun item => item.kind ∉ oracleAttention) =
    right.attention.filter fun item => item.kind ∉ oracleAttention

section Oracle

variable {i j : ScoreInputs} {cfg : ScoringConfig}

/-- The judgement does not depend on how many blocks behind the oracle says an indexer is. -/
theorem judge_congr_blocksBehind (differ : j = { i with qosBlocksBehind := j.qosBlocksBehind }) :
    judge i cfg = judge j cfg := by
  rw [differ]
  rfl

/-- Inputs that differ only in what the oracle says have one composite. -/
theorem compositeOf_congr (differ : DifferInOracle i j) : compositeOf i cfg = compositeOf j cfg := by
  rw [DifferInOracle] at differ
  rw [differ]
  rfl

/-- The choice of kinds lets no verdict of a rule that reads the oracle through. -/
theorem filter_oracleVerdict {condition : Bool} {kind title : String} {severity : Severity}
    {evidence : List (String × Json)} (reads : kind ∈ oracleVerdicts) :
    (verdictIf condition i kind severity title evidence).filter
      (fun verdict => verdict.kind ∉ oracleVerdicts) = [] := by
  rw [filter_verdictIf fun kind => decide (kind ∉ oracleVerdicts), decide_eq_false (not_not.mpr reads),
    Bool.and_false]
  rfl

/-- Inputs that differ only in what the oracle says get the same verdicts of other kinds. -/
theorem filter_deriveVerdicts_congr (differ : DifferInOracle i j) (composite : ℚ) :
    (deriveVerdicts i cfg composite).filter (fun verdict => verdict.kind ∉ oracleVerdicts) =
      (deriveVerdicts j cfg composite).filter fun verdict => verdict.kind ∉ oracleVerdicts := by
  have noData : "serving-no-data" ∈ oracleVerdicts := by decide
  have leech : "leech" ∈ oracleVerdicts := by decide
  have reo : "reo-ineligible-candidate" ∈ oracleVerdicts := by decide
  simp only [deriveVerdicts, List.filter_append, filter_oracleVerdict noData,
    filter_oracleVerdict leech, filter_oracleVerdict reo]
  rw [DifferInOracle] at differ
  rw [differ]
  rfl

/-- Inputs that differ only in what the oracle says get the same items of other kinds. -/
theorem filter_deriveAttention_congr (differ : DifferInOracle i j) :
    (deriveAttention i cfg).filter (fun item => item.kind ∉ oracleAttention) =
      (deriveAttention j cfg).filter fun item => item.kind ∉ oracleAttention := by
  have dropped : decide ("serving-no-data" ∉ oracleAttention) = false := by decide
  simp only [deriveAttention, List.filter_append,
    filter_attentionIf fun kind => decide (kind ∉ oracleAttention), dropped, Bool.and_false]
  rw [DifferInOracle] at differ
  rw [differ]
  rfl

/-- The oracle moves no grade: its lag moves nothing at all, and its other figures nothing
but the findings that are about them. -/
theorem judge_ignores_oracle (differ : DifferInOracle i j) :
    (i.qosSuccessRate = j.qosSuccessRate → i.qosQueryCount = j.qosQueryCount →
      judge i cfg = judge j cfg) ∧
    ((judge i cfg).score.rated = true → (judge j cfg).score.rated = true →
      SameGrade (judge i cfg) (judge j cfg)) := by
  refine ⟨fun rate queries => judge_congr_blocksBehind ?_, fun rated ratedToo => ?_⟩
  · rw [DifferInOracle, ← rate, ← queries] at differ
    exact differ
  · have composites := @compositeOf_congr i j cfg differ
    rw [judge_of_rated rated, judge_of_rated ratedToo]
    exact
      { composite := composites
        grade := congrArg (gradeFor · cfg) composites
        correctnessScore := by rw [ratedScore, ratedScore, differ]; rfl
        availabilityScore := by rw [ratedScore, ratedScore, differ]; rfl
        freshnessScore := by rw [ratedScore, ratedScore, differ]; rfl
        coverageScore := by rw [ratedScore, ratedScore, differ]; rfl
        valueScore := rfl
        subScores := by rw [ratedScore, ratedScore, differ]; rfl
        sybilFlag := by rw [ratedScore, ratedScore, differ]; rfl
        sybilClusterId := by rw [ratedScore, ratedScore, differ]; rfl
        probeCount := by rw [ratedScore, ratedScore, differ]
        verdicts := composites ▸ filter_deriveVerdicts_congr differ (compositeOf i cfg)
        attention := filter_deriveAttention_congr differ }

end Oracle

/-- An indexer that the probes alone rate. -/
def probedOnly : ScoreInputs :=
  { ScoreInputs.default with probesAnswered := 10, totalObservations := 12, errorObservations := 2 }

/-- The same indexer under an oracle that finds it failing and far behind. -/
def oracleBlamed : ScoreInputs :=
  { probedOnly with
    qosSuccessRate := some 10
    qosQueryCount := some 1000
    qosBlocksBehind := some 900000 }

/-- The indexer that the oracle blames is graded as the one that was only probed. -/
theorem oracleBlamed_same_grade :
    SameGrade (judge probedOnly .default) (judge oracleBlamed .default) :=
  (@judge_ignores_oracle probedOnly oracleBlamed _ rfl).2 (by decide) (by decide)

end Foghorn.Core
