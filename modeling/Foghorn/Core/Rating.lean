import Foghorn.Core.Score

/-!
# Whether an indexer stays on the board

`is_rated` asks for activity and for a measurement, and counts a probe as activity only
when it was answered. An indexer whose every probe turned into an error is measured, and
stays judged only while a query or an allocation shows that it is active.
-/

namespace Foghorn.Core

section Rated

variable {i j : ScoreInputs} {cfg : ScoringConfig}

/-- Some answered probes of `i` are errors in `j`; nothing else differs. -/
structure FailsMore (i j : ScoreInputs) : Prop where
  rest : j = { i with
    probesAnswered := j.probesAnswered
    correctnessFaults := j.correctnessFaults
    errorObservations := j.errorObservations
    recentErrors := j.recentErrors }
  fewer : j.probesAnswered < i.probesAnswered
  answered : 0 ≤ j.probesAnswered
  faults : j.correctnessFaults ≤ j.probesAnswered
  moreErrors : i.errorObservations < j.errorObservations
  errors : j.errorObservations ≤ j.totalObservations
  recent : i.recentErrors ≤ j.recentErrors

/-- `i` is judged, and told so when it serves no data. -/
def OnBoard (i : ScoreInputs) (cfg : ScoringConfig) : Prop :=
  (judge i cfg).score.rated = true ∧
    (isServingNoData i cfg = true → ∃ verdict ∈ (judge i cfg).verdicts,
      verdict.kind = "serving-no-data")

/-- What shows that an indexer does anything. -/
def ShowsActivity (i : ScoreInputs) : Prop :=
  0 < i.probesAnswered ∨ (∃ queries ∈ i.qosQueryCount, 0 < queries) ∨
    ∃ count ∈ i.allocationCount, 0 < count

/-- What a sub-score other than coverage can be computed from. -/
def ShowsQuality (i : ScoreInputs) (cfg : ScoringConfig) : Prop :=
  0 < i.probesAnswered ∨ 0 < i.totalObservations ∨
    cfg.servingMinDeployments ≤ i.qosDeploymentsMeasured ∨ i.measuredBlocksBehind.isSome

private theorem isActive_iff : isActive i = true ↔ ShowsActivity i := by
  simp only [isActive, ShowsActivity, Bool.or_eq_true, Option.any_eq_true, decide_eq_true_eq,
    Option.mem_def, or_assoc]

/-- There is a correctness score once a probe was answered. -/
theorem isSome_correctnessScore : (correctnessScore i).isSome = true ↔ 0 < i.probesAnswered := by
  unfold correctnessScore
  split
  · rename_i unanswered
    exact iff_of_false Bool.false_ne_true unanswered.not_gt
  · rename_i answered
    exact iff_of_true rfl (not_le.mp answered)

/-- There is a broken share once enough deployments are measured. -/
theorem isSome_servingBrokenFraction :
    (servingBrokenFraction i cfg).isSome = true ↔
      cfg.servingMinDeployments ≤ i.qosDeploymentsMeasured := by
  unfold servingBrokenFraction
  split
  · rename_i few
    exact iff_of_false Bool.false_ne_true few.not_ge
  · rename_i enough
    exact iff_of_true rfl (not_lt.mp enough)

/-- There is an availability score once anything was observed or measured enough. -/
theorem isSome_availabilityScore :
    (availabilityScore i cfg).isSome = true ↔
      0 < i.totalObservations ∨ cfg.servingMinDeployments ≤ i.qosDeploymentsMeasured := by
  rw [← isSome_servingBrokenFraction]
  unfold availabilityScore Std.average
  by_cases observed : 0 < i.totalObservations
  · simp [observed]
  · cases servingBrokenFraction i cfg <;> simp [observed]

/-- An indexer is rated when it shows activity and something to grade. -/
theorem isRated_iff : isRated i cfg = true ↔ ShowsActivity i ∧ ShowsQuality i cfg := by
  have lag : (freshnessScore i cfg).isSome = i.measuredBlocksBehind.isSome := Option.isSome_map
  rw [isRated, Bool.and_eq_true, Bool.or_eq_true, Bool.or_eq_true, isActive_iff,
    isSome_correctnessScore, isSome_availabilityScore, lag, ShowsQuality, or_assoc, or_assoc]

/-- The verdict goes with the rating. -/
theorem onBoard_iff : OnBoard i cfg ↔ isRated i cfg = true := by
  rw [OnBoard, rated_judge]
  refine ⟨And.left, fun rated => ⟨rated, fun noData => ?_⟩⟩
  rw [judge_of_rated (rated_judge.trans rated)]
  rw [deriveVerdicts]
  obtain ⟨verdict, emitted, kind⟩ := exists_mem_verdictIf noData
  refine ⟨verdict, ?_, kind⟩
  simp only [List.mem_append]
  exact .inl (.inl (.inl (.inl (.inl (.inr emitted)))))

/-- With counts that count, errors are a measurement, and activity decides. -/
theorem onBoard_iff_of_counted (more : FailsMore i j) (counted : 0 ≤ i.errorObservations) :
    OnBoard j cfg ↔ ShowsActivity j := by
  have observed : 0 < j.totalObservations := by
    have := more.moreErrors
    have := more.errors
    omega
  rw [onBoard_iff, isRated_iff, and_iff_left (.inr (.inl observed))]

end Rated

/-- An indexer that fails more stays on the board exactly as long as something other than a
failed probe shows that it is active, and something measures it. -/
theorem fails_more_on_board_iff {i j : ScoreInputs} {cfg : ScoringConfig} (more : FailsMore i j) :
    OnBoard j cfg ↔
      (0 < j.probesAnswered ∨ (∃ queries ∈ i.qosQueryCount, 0 < queries) ∨
        ∃ count ∈ i.allocationCount, 0 < count) ∧
      (0 < j.probesAnswered ∨ 0 < i.totalObservations ∨
        cfg.servingMinDeployments ≤ i.qosDeploymentsMeasured ∨ i.measuredBlocksBehind.isSome) := by
  rw [onBoard_iff, isRated_iff, ShowsActivity, ShowsQuality, more.rest]

/-- Three probes, one answered. -/
def answersOne : ScoreInputs :=
  { ScoreInputs.default with
    indexerAddress := "0xa"
    windowDays := 7
    probesAnswered := 1
    errorObservations := 2
    totalObservations := 3
    recentObservations := 3
    recentErrors := 2 }

/-- The same three probes, none answered. -/
def answersNone : ScoreInputs :=
  { answersOne with probesAnswered := 0, errorObservations := 3, recentErrors := 3 }

private theorem answersNone_failsMore : FailsMore answersOne answersNone :=
  ⟨rfl, by decide, by decide, by decide, by decide, by decide, by decide⟩

/-- With an allocation the same failures keep the indexer on the board. -/
theorem allocated_on_board : OnBoard { answersNone with allocationCount := some 1 } .default :=
  (@fails_more_on_board_iff { answersOne with allocationCount := some 1 } _ _
    ⟨rfl, by decide, by decide, by decide, by decide, by decide, by decide⟩).mpr
    ⟨.inr (.inr ⟨1, rfl, by decide⟩), .inr (.inl (by decide))⟩

/-- An indexer that stops answering altogether leaves the board, called inactive after three
probes that it failed, without the verdict that it serves no data. -/
theorem failing_all_refutes :
    FailsMore answersOne answersNone ∧ (judge answersOne .default).score.rated = true ∧
      isServingNoData answersNone .default = true ∧
      (judge answersNone .default).score.rated = false ∧
      (judge answersNone .default).score.reasons =
        ["inactive — no queries, allocations, or probe coverage"] ∧
      (judge answersNone .default).verdicts.map Verdict.kind = [] :=
  ⟨answersNone_failsMore, by decide +kernel, by decide +kernel, by decide +kernel,
    by decide +kernel, by decide +kernel⟩

end Foghorn.Core
