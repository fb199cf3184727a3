import Mathlib.Algebra.Order.Ring.Rat
import Foghorn.Std.Aggregate
import Foghorn.Core.Board

/-!
# The judgement

`judge` grades what a cycle assembled for one indexer and window: sub-scores that are
absent when nothing was measured, their weighted mean, two penalties, and the verdicts
and items that follow. Doubles are exact rationals. The lemmas say which kinds of finding
`judge` can emit; the texts and evidence of the findings are those of the source.
-/

namespace Foghorn.Core

open Foghorn.Std

structure ScoringConfig where
  windows : List Int
  wCorrectness : ℚ
  wAvailability : ℚ
  wFreshness : ℚ
  wCoverage : ℚ
  gradeA : ℚ
  gradeB : ℚ
  gradeC : ℚ
  gradeD : ℚ
  lowCoverageSubgraphs : Int
  leechMinStakeGrt : ℚ
  leechMaxQueries : Int
  badDataMinFaults : Int
  badDataMinRate : ℚ
  noDataMinErrorRate : ℚ
  behindLagBlocks : Int
  qosMinQueries : Int
  sybilGradePenalty : ℚ
  servingGradePenalty : ℚ
  servingMinDeployments : Int
  servingBrokenCountRef : Int
  servingMinProbes : Int

def ScoringConfig.default : ScoringConfig where
  windows := [7, 30]
  wCorrectness := 40 / 100
  wAvailability := 30 / 100
  wFreshness := 20 / 100
  wCoverage := 10 / 100
  gradeA := 90
  gradeB := 75
  gradeC := 60
  gradeD := 40
  lowCoverageSubgraphs := 20
  leechMinStakeGrt := 1000000
  leechMaxQueries := 100
  badDataMinFaults := 3
  badDataMinRate := 10 / 100
  noDataMinErrorRate := 50 / 100
  behindLagBlocks := 500000
  qosMinQueries := 500
  sybilGradePenalty := 6 / 10
  servingGradePenalty := 7 / 10
  servingMinDeployments := 3
  servingBrokenCountRef := 20
  servingMinProbes := 10

/-- What is assembled for one indexer and window. -/
structure ScoreInputs where
  indexerAddress : String
  windowDays : Int
  probesAnswered : Int
  correctnessFaults : Int
  errorObservations : Int
  totalObservations : Int
  recentObservations : Int
  recentErrors : Int
  recentFaults : Int
  selfStakeGrt : Option ℚ
  allocationCount : Option Int
  qosSuccessRate : Option ℚ
  qosBlocksBehind : Option ℚ
  measuredBlocksBehind : Option ℚ
  qosQueryCount : Option Int
  reoStatus : Option String
  ensName : Option String
  qosDeploymentsMeasured : Int
  qosDeploymentsErroring : Int
  sybilClusterId : Option String
  sybilConfidence : Option ℚ

/-- The derived `Default`. -/
def ScoreInputs.default : ScoreInputs where
  indexerAddress := ""
  windowDays := 0
  probesAnswered := 0
  correctnessFaults := 0
  errorObservations := 0
  totalObservations := 0
  recentObservations := 0
  recentErrors := 0
  recentFaults := 0
  selfStakeGrt := none
  allocationCount := none
  qosSuccessRate := none
  qosBlocksBehind := none
  measuredBlocksBehind := none
  qosQueryCount := none
  reoStatus := none
  ensName := none
  qosDeploymentsMeasured := 0
  qosDeploymentsErroring := 0
  sybilClusterId := none
  sybilConfidence := none

structure ScoreOutcome where
  score : IndexerScore
  verdicts : List Verdict
  attention : List AttentionItem

/-- The confidence from which a cluster earns a public verdict. -/
def sybilVerdictConfidence : ℚ := 6 / 10

/-- `format!("{:.0}")`: to the nearest integer, a half to the even one, the sign kept. -/
def showRounded (value : ℚ) : String :=
  if value < 0 then "-" ++ toString (roundHalfEven (-value)) else toString (roundHalfEven value)

def clamp01 (value : ℚ) : ℚ := min (max value 0) 1

/-- The clamped quotient of two counts. Over a total of none a double is an infinity, or not a
number, which `max` drops. -/
def clampedShare (count total : Int) : ℚ :=
  if total = 0 then if 0 < count then 1 else 0 else clamp01 (count / total)

def gradeFor (composite : ℚ) (cfg : ScoringConfig) : String :=
  if cfg.gradeA ≤ composite then "A"
  else if cfg.gradeB ≤ composite then "B"
  else if cfg.gradeC ≤ composite then "C"
  else if cfg.gradeD ≤ composite then "D"
  else "F"

section SubScores

variable (i : ScoreInputs) (cfg : ScoringConfig)

def correctnessScore : Option ℚ :=
  if i.probesAnswered ≤ 0 then none
  else some (100 * (1 - clamp01 (i.correctnessFaults / i.probesAnswered)))

/-- The share of the measured deployments that serve errors, if enough are measured. -/
def servingBrokenFraction : Option ℚ :=
  if i.qosDeploymentsMeasured < cfg.servingMinDeployments then none
  else some (clampedShare i.qosDeploymentsErroring i.qosDeploymentsMeasured)

/-- The share, or half of how many there are against the reference. -/
def servingBrokenSeverity : Option ℚ :=
  (servingBrokenFraction i cfg).map fun fraction =>
    max fraction (5 / 10 *
      clamp01 (i.qosDeploymentsErroring / (max cfg.servingBrokenCountRef 1 : Int)))

def availabilityScore : Option ℚ :=
  let observed :=
    if 0 < i.totalObservations then
      [100 * (1 - clamp01 (i.errorObservations / i.totalObservations))]
    else []
  let serving := ((servingBrokenFraction i cfg).map fun broken => 100 * (1 - broken)).toList
  average (observed ++ serving)

def lagToScore (lag : ℚ) (behindBlocks : Int) : ℚ :=
  let maxLag : ℚ := (max behindBlocks 1 : Int) * 4
  100 * (1 - clamp01 (lag / maxLag))

def freshnessScore : Option ℚ :=
  i.measuredBlocksBehind.map fun behind => lagToScore (max behind 0) cfg.behindLagBlocks

def coverageScore : Option ℚ :=
  i.allocationCount.map fun count =>
    let target : ℚ := (max cfg.lowCoverageSubgraphs 1 : Int) * 2
    100 * clamp01 (count / target)

/-- Probed, queried or allocated. -/
def isActive : Bool :=
  0 < i.probesAnswered || i.qosQueryCount.any (fun queries => 0 < queries) ||
    i.allocationCount.any (fun count => 0 < count)

def isRated : Bool :=
  isActive i && ((correctnessScore i).isSome || (availabilityScore i cfg).isSome ||
    (freshnessScore i cfg).isSome)

def faultRate : ℚ :=
  if 0 < i.probesAnswered then i.correctnessFaults / i.probesAnswered else 0

def recentErrorRate : ℚ :=
  if 0 < i.recentObservations then i.recentErrors / i.recentObservations else 0

def isServingBadData : Bool :=
  decide (cfg.badDataMinFaults ≤ i.correctnessFaults) && decide (cfg.badDataMinRate ≤ faultRate i)

def qosFailing : Bool :=
  match i.qosSuccessRate, i.qosQueryCount with
  | some rate, some queries =>
    decide (cfg.qosMinQueries ≤ queries) && decide (rate < (1 - cfg.noDataMinErrorRate) * 100)
  | _, _ => false

def isServingNoData : Bool :=
  qosFailing i cfg ||
    decide (3 ≤ i.recentObservations) && decide (cfg.noDataMinErrorRate ≤ recentErrorRate i)

def isBehind : Bool := i.measuredBlocksBehind.any fun behind => (cfg.behindLagBlocks : ℚ) < behind

def isLeech : Bool :=
  match i.selfStakeGrt, i.qosQueryCount with
  | some stake, some queries =>
    decide (cfg.leechMinStakeGrt ≤ stake) && decide (queries ≤ cfg.leechMaxQueries)
  | _, _ => false

/-- `sybil_confidence` at or above the confidence of a verdict. -/
def isSybil : Bool := i.sybilConfidence.any fun confidence => sybilVerdictConfidence ≤ confidence

def unratedReason : String :=
  if isLeech i cfg then
    "not rated — stake is idle, and Lodestar has not measured this indexer in the window"
  else if isActive i then
    "not rated — active, but Lodestar has not measured this indexer in the window"
  else "inactive — no queries, allocations, or probe coverage"

end SubScores

/-- A text that is pushed when a condition holds. -/
def pushIf (condition : Bool) (text : String) : List String := if condition then [text] else []

def buildReasons (i : ScoreInputs) (cfg : ScoringConfig)
    (correctness availability coverage : Option ℚ) : List String :=
  (if correctness.isSome then
    if 0 < i.correctnessFaults then
      [s!"served minority (divergent) data on {i.correctnessFaults}/{i.probesAnswered} probes"]
    else pushIf (0 < i.probesAnswered) s!"in consensus on all {i.probesAnswered} probes"
  else ["no Foghorn probe coverage in window"]) ++
  (match availability, i.qosSuccessRate with
    | some _, some rate => ["QoS success rate " ++ showRounded rate ++ "%"]
    | _, _ => []) ++
  pushIf (0 < i.totalObservations && 0 < i.errorObservations)
    s!"{i.errorObservations}/{i.totalObservations} probe responses errored" ++
  (i.measuredBlocksBehind.toList.flatMap fun behind =>
    pushIf ((cfg.behindLagBlocks : ℚ) < behind)
      ("behind chainhead (~" ++ showRounded behind ++ " blocks, measured)")) ++
  pushIf (qosFailing i cfg)
    ("low QoS success rate " ++ showRounded (i.qosSuccessRate.getD 0) ++ "% over " ++
      toString (i.qosQueryCount.getD 0) ++ " queries") ++
  pushIf ((servingBrokenFraction i cfg).any fun broken => 0 < broken)
    (s!"serving errors on {i.qosDeploymentsErroring}/{i.qosDeploymentsMeasured}" ++
      " materially-queried deployments") ++
  (match coverage, i.allocationCount with
    | some _, some count =>
      pushIf (count < cfg.lowCoverageSubgraphs)
        s!"narrow coverage: {count} subgraphs (< {cfg.lowCoverageSubgraphs})"
    | _, _ => []) ++
  pushIf i.ensName.isNone "anonymous (no ENS name)" ++
  pushIf (isSybil i)
    ("member of probable operator swarm " ++ i.sybilClusterId.getD "?" ++ " (" ++
      showRounded (i.sybilConfidence.getD 0 * 100) ++ "% confidence)")

/-- `mk`, and whether it is pushed. -/
def verdictIf (condition : Bool) (i : ScoreInputs) (kind : String) (severity : Severity)
    (title : String) (evidence : List (String × Json)) : List Verdict :=
  if condition then
    [⟨i.indexerAddress, kind, severity, title, .object evidence, some i.windowDays⟩]
  else []

/-- The conditions that an eligible indexer fails. -/
def failingConditions (i : ScoreInputs) (cfg : ScoringConfig) (composite : ℚ) : List String :=
  pushIf (composite < cfg.gradeD) "composite below D grade" ++
  pushIf (isServingBadData i cfg) "serving bad data" ++
  pushIf (isServingNoData i cfg) "serving no data" ++
  pushIf (isLeech i cfg) "leech (high stake, negligible queries)"

def deriveVerdicts (i : ScoreInputs) (cfg : ScoringConfig) (composite : ℚ) : List Verdict :=
  verdictIf (isServingBadData i cfg) i "serving-bad-data" .critical
    ("Serving divergent data on " ++ showRounded (faultRate i * 100) ++ "% of probes")
    [("faults", .ofInt i.correctnessFaults), ("probes", .ofInt i.probesAnswered),
      ("fault_rate", .ofRat (faultRate i))] ++
  verdictIf (isServingBadData i cfg && decide (cfg.badDataMinFaults * 2 ≤ i.correctnessFaults) &&
      decide (cfg.badDataMinRate * 2 ≤ faultRate i)) i "dispute-candidate" .critical
    "Sustained correctness faults — POI dispute candidate"
    [("faults", .ofInt i.correctnessFaults), ("fault_rate", .ofRat (faultRate i))] ++
  verdictIf (isServingNoData i cfg) i "serving-no-data" .critical "Serving errors / no data"
    [("qos_success_rate", .ofOption .ofRat i.qosSuccessRate),
      ("qos_query_count", .ofOption .ofInt i.qosQueryCount),
      ("recent_error_rate", .ofRat (recentErrorRate i)),
      ("recent_observations", .ofInt i.recentObservations)] ++
  verdictIf (isBehind i cfg) i "behind-chainhead" .high "Behind chainhead"
    [("measured_blocks_behind", .ofOption .ofRat i.measuredBlocksBehind)] ++
  (i.allocationCount.toList.flatMap fun count =>
    verdictIf (count < cfg.lowCoverageSubgraphs) i "low-coverage" .medium
      s!"Narrow coverage: {count} subgraphs"
      [("allocation_count", .ofInt count), ("threshold", .ofInt cfg.lowCoverageSubgraphs)]) ++
  verdictIf (isLeech i cfg) i "leech" .high "High stake, negligible queries served"
    [("self_stake_grt", .ofOption .ofRat i.selfStakeGrt),
      ("query_count", .ofOption .ofInt i.qosQueryCount)] ++
  verdictIf (i.reoStatus = some "eligible" && failingConditions i cfg composite ≠ []) i
    "reo-ineligible-candidate" .high
    ("REO-eligible but failing: " ++ ", ".intercalate (failingConditions i cfg composite))
    [("failing", .array ((failingConditions i cfg composite).map .string)),
      ("composite", .ofRat composite), ("grade_d_threshold", .ofRat cfg.gradeD)] ++
  verdictIf (isSybil i) i "sybil-swarm-member" .high "Probable operator-swarm member"
    [("cluster_id", .ofOption .string i.sybilClusterId),
      ("confidence", .ofOption .ofRat i.sybilConfidence)]

/-- An item about a whole indexer, and whether it is pushed. -/
def attentionIf (condition : Bool) (i : ScoreInputs) (kind : String) (severity : Severity)
    (urgency : ℚ) (title : String) (detail : List (String × Json)) : List AttentionItem :=
  if condition then [⟨i.indexerAddress, kind, "", severity, urgency, title, .object detail⟩] else []

def deriveAttention (i : ScoreInputs) (cfg : ScoringConfig) : List AttentionItem :=
  attentionIf (isServingNoData i cfg) i "serving-no-data" .critical
    (100 + max (100 - i.qosSuccessRate.getD 100) 0) "Serving errors / no data"
    [("qos_success_rate", .ofOption .ofRat i.qosSuccessRate),
      ("qos_query_count", .ofOption .ofInt i.qosQueryCount),
      ("recent_errors", .ofInt i.recentErrors),
      ("recent_observations", .ofInt i.recentObservations)] ++
  attentionIf (isServingBadData i cfg) i "serving-bad-data" .critical
    (90 + (min i.correctnessFaults 100 : Int)) "Serving divergent (likely wrong) data"
    [("faults", .ofInt i.correctnessFaults), ("probes", .ofInt i.probesAnswered)] ++
  let lag := max (i.measuredBlocksBehind.getD 0) 0
  attentionIf (isBehind i cfg) i "behind-chainhead" .high (50 + min lag 1000 / 20)
    ("Behind chainhead (~" ++ showRounded lag ++ " blocks)")
    [("measured_blocks_behind", .ofOption .ofRat i.measuredBlocksBehind)]

/-- The mean of the present sub-scores by their weights. -/
def rawComposite (i : ScoreInputs) (cfg : ScoringConfig) : ℚ :=
  let weighted := [(correctnessScore i, cfg.wCorrectness), (availabilityScore i cfg, cfg.wAvailability),
    (freshnessScore i cfg, cfg.wFreshness), (coverageScore i cfg, cfg.wCoverage)]
  let present := weighted.filterMap fun (score, weight) => score.map fun score => (score, weight)
  let num := (present.map fun (score, weight) => score * weight).sum
  let den := (present.map Prod.snd).sum
  if 0 < den then num / den else 0

/-- The composite after the swarm penalty and the penalty for broad serving failure. -/
def compositeOf (i : ScoreInputs) (cfg : ScoringConfig) : ℚ :=
  let afterSybil :=
    if isSybil i then rawComposite i cfg * (1 - i.sybilConfidence.getD 0 * cfg.sybilGradePenalty)
    else rawComposite i cfg
  match servingBrokenSeverity i cfg with
  | some severity => afterSybil * (1 - severity * cfg.servingGradePenalty)
  | none => afterSybil

def subScoresJson (correctness availability freshness coverage : Option ℚ) : Json :=
  .object [("correctness", .ofOption .ofRat correctness),
    ("availability", .ofOption .ofRat availability), ("freshness", .ofOption .ofRat freshness),
    ("coverage", .ofOption .ofRat coverage), ("value", .null)]

/-- The verdicts that stand without any measurement. -/
def structuralVerdicts : List String := ["leech", "low-coverage", "sybil-swarm-member"]

/-- The score of an indexer that cannot be rated. -/
def unratedScore (i : ScoreInputs) (cfg : ScoringConfig) : IndexerScore where
  indexerAddress := i.indexerAddress
  windowDays := i.windowDays
  composite := 0
  grade := "NR"
  rated := false
  correctnessScore := none
  availabilityScore := none
  freshnessScore := none
  coverageScore := none
  valueScore := none
  sybilFlag := false
  sybilClusterId := none
  probeCount := 0
  reasons := [unratedReason i cfg]
  subScores := subScoresJson none none none none

def ratedScore (i : ScoreInputs) (cfg : ScoringConfig) : IndexerScore where
  indexerAddress := i.indexerAddress
  windowDays := i.windowDays
  composite := compositeOf i cfg
  grade := gradeFor (compositeOf i cfg) cfg
  rated := true
  correctnessScore := correctnessScore i
  availabilityScore := availabilityScore i cfg
  freshnessScore := freshnessScore i cfg
  coverageScore := coverageScore i cfg
  valueScore := none
  sybilFlag := isSybil i
  sybilClusterId := if isSybil i then i.sybilClusterId else none
  -- `as i32` keeps the low half.
  probeCount := i.probesAnswered.bmod (2 ^ 32)
  reasons := buildReasons i cfg (correctnessScore i) (availabilityScore i cfg) (coverageScore i cfg)
  subScores := subScoresJson (correctnessScore i) (availabilityScore i cfg) (freshnessScore i cfg)
    (coverageScore i cfg)

def judge (i : ScoreInputs) (cfg : ScoringConfig) : ScoreOutcome :=
  if isRated i cfg then
    { score := ratedScore i cfg
      verdicts := deriveVerdicts i cfg (compositeOf i cfg)
      attention := deriveAttention i cfg }
  else
    { score := unratedScore i cfg
      verdicts := (deriveVerdicts i cfg 0).filter fun verdict => verdict.kind ∈ structuralVerdicts
      attention := [] }

section Judge

variable {i : ScoreInputs} {cfg : ScoringConfig}

/-- The judgement says whether the indexer is rated. -/
theorem rated_judge : (judge i cfg).score.rated = isRated i cfg := by
  unfold judge
  split
  · rename_i rated
    exact rated.symm
  · rename_i unrated
    exact (Bool.not_eq_true _ ▸ unrated).symm

/-- A rated indexer gets its scores and all derived verdicts and items. -/
theorem judge_of_rated (rated : (judge i cfg).score.rated = true) :
    judge i cfg = ⟨ratedScore i cfg, deriveVerdicts i cfg (compositeOf i cfg),
      deriveAttention i cfg⟩ := by
  rw [judge, if_pos (rated_judge ▸ rated)]

/-- A score is about the indexer and the window it was assembled for. -/
theorem key_judge : (judge i cfg).score.key = (i.indexerAddress, i.windowDays) := by
  unfold judge
  split <;> rfl

/-- A grade is penalised for a swarm exactly when it is flagged. -/
theorem sybilFlag_judge : (judge i cfg).score.sybilFlag = (isRated i cfg && isSybil i) := by
  unfold judge
  split
  · rename_i rated
    rw [rated]
    rfl
  · rename_i unrated
    rw [Bool.not_eq_true] at unrated
    rw [unrated]
    rfl

/-- What a verdict on `i` says of whom it is about, and what it takes to be one of a swarm. -/
structure Concerns (i : ScoreInputs) (verdict : Verdict) : Prop where
  indexer : verdict.indexerAddress = i.indexerAddress
  window : verdict.windowDays = some i.windowDays
  sybil : verdict.kind = "sybil-swarm-member" → isSybil i

private theorem mem_verdictIf {condition : Bool} {kind title : String} {severity : Severity}
    {evidence : List (String × Json)} {verdict : Verdict}
    (member : verdict ∈ verdictIf condition i kind severity title evidence) :
    condition = true ∧ verdict.kind = kind ∧ verdict.indexerAddress = i.indexerAddress ∧
      verdict.windowDays = some i.windowDays := by
  unfold verdictIf at member
  split at member
  · obtain rfl := List.mem_singleton.mp member
    exact ⟨‹_›, rfl, rfl, rfl⟩
  · cases member

/-- A choice by kind passes through to the condition. -/
theorem filter_verdictIf (chosen : String → Bool) {condition : Bool} {kind title : String}
    {severity : Severity} {evidence : List (String × Json)} :
    (verdictIf condition i kind severity title evidence).filter
        (fun verdict => chosen verdict.kind) =
      verdictIf (condition && chosen kind) i kind severity title evidence := by
  unfold verdictIf
  cases condition with
  | false => rfl
  | true => cases kept : chosen kind <;> simp [kept]

/-- A verdict whose condition holds is there under its kind. -/
theorem exists_mem_verdictIf {condition : Bool} {kind title : String} {severity : Severity}
    {evidence : List (String × Json)} (holds : condition = true) :
    ∃ verdict ∈ verdictIf condition i kind severity title evidence, verdict.kind = kind := by
  rw [verdictIf, if_pos holds]
  exact ⟨_, List.mem_singleton_self _, rfl⟩

private theorem concerns_of_mem_verdictIf {condition : Bool} {kind title : String}
    {severity : Severity}
    {evidence : List (String × Json)} {verdict : Verdict}
    (member : verdict ∈ verdictIf condition i kind severity title evidence)
    (sybil : kind = "sybil-swarm-member" → condition = true → isSybil i) : Concerns i verdict := by
  obtain ⟨holds, rfl, indexer, window⟩ := mem_verdictIf member
  exact ⟨indexer, window, fun same => sybil same holds⟩

private theorem mem_attentionIf {condition : Bool} {kind title : String} {severity : Severity}
    {urgency : ℚ}
    {detail : List (String × Json)} {item : AttentionItem}
    (member : item ∈ attentionIf condition i kind severity urgency title detail) :
    item.kind = kind ∧ item.indexerAddress = i.indexerAddress := by
  unfold attentionIf at member
  split at member
  · obtain rfl := List.mem_singleton.mp member
    exact ⟨rfl, rfl⟩
  · cases member

/-- Choosing items by kind is choosing whether the item is derived. -/
theorem filter_attentionIf (chosen : String → Bool) {condition : Bool} {kind title : String}
    {severity : Severity} {urgency : ℚ} {detail : List (String × Json)} :
    (attentionIf condition i kind severity urgency title detail).filter
        (fun item => chosen item.kind) =
      attentionIf (condition && chosen kind) i kind severity urgency title detail := by
  unfold attentionIf
  cases condition with
  | false => rfl
  | true => cases kept : chosen kind <;> simp [kept]

/-- A derived verdict is about the indexer that was judged. -/
theorem concerns_of_mem_deriveVerdicts {composite : ℚ} {verdict : Verdict}
    (member : verdict ∈ deriveVerdicts i cfg composite) : Concerns i verdict := by
  simp only [deriveVerdicts, List.mem_append, List.mem_flatMap] at member
  rcases member with
    ((((((badData | dispute) | noData) | behind) | ⟨_, _, coverage⟩) | leech) | reo) | sybil
  · exact concerns_of_mem_verdictIf badData fun same => absurd same (by decide)
  · exact concerns_of_mem_verdictIf dispute fun same => absurd same (by decide)
  · exact concerns_of_mem_verdictIf noData fun same => absurd same (by decide)
  · exact concerns_of_mem_verdictIf behind fun same => absurd same (by decide)
  · exact concerns_of_mem_verdictIf coverage fun same => absurd same (by decide)
  · exact concerns_of_mem_verdictIf leech fun same => absurd same (by decide)
  · exact concerns_of_mem_verdictIf reo fun same => absurd same (by decide)
  · exact concerns_of_mem_verdictIf sybil fun _ holds => holds

/-- A verdict of the judgement is about the indexer that was judged. -/
theorem concerns_of_mem_judge {verdict : Verdict} (member : verdict ∈ (judge i cfg).verdicts) :
    Concerns i verdict := by
  unfold judge at member
  split at member
  · exact concerns_of_mem_deriveVerdicts member
  · exact concerns_of_mem_deriveVerdicts (List.mem_filter.mp member).1

/-- Without a confidence nothing marks an indexer as a swarm member. -/
theorem judge_of_no_sybil (unknown : i.sybilConfidence = none) :
    (judge i cfg).score.sybilFlag = false ∧
      ∀ verdict ∈ (judge i cfg).verdicts, verdict.kind ≠ "sybil-swarm-member" := by
  have clear : isSybil i = false := by rw [isSybil, unknown]; rfl
  refine ⟨by rw [sybilFlag_judge, clear, Bool.and_false], fun verdict member kind => ?_⟩
  exact absurd ((concerns_of_mem_judge member).sybil kind) (by simp [clear])

/-- The kinds of item that a judgement can raise, always about the indexer judged. -/
theorem mem_attention_judge {item : AttentionItem} (member : item ∈ (judge i cfg).attention) :
    (item.kind = "serving-no-data" ∨ item.kind = "serving-bad-data" ∨
      item.kind = "behind-chainhead") ∧ item.indexerAddress = i.indexerAddress := by
  unfold judge at member
  split at member
  · simp only [deriveAttention, List.mem_append] at member
    rcases member with (noData | badData) | behind
    · exact (mem_attentionIf noData).imp_left Or.inl
    · exact (mem_attentionIf badData).imp_left (Or.inr ∘ Or.inl)
    · exact (mem_attentionIf behind).imp_left (Or.inr ∘ Or.inr)
  · cases member

/-- An item about bad data is critical. -/
theorem critical_of_badData {item : AttentionItem} (member : item ∈ (judge i cfg).attention)
    (badData : item.kind = "serving-bad-data") : item.severity = .critical := by
  unfold judge at member
  split at member
  · simp only [deriveAttention, List.mem_append] at member
    rcases member with (noData | raised) | behind
    · exact absurd ((mem_attentionIf noData).1.symm.trans badData) (by decide)
    · unfold attentionIf at raised
      split at raised
      · rw [List.mem_singleton.mp raised]
      · cases raised
    · exact absurd ((mem_attentionIf behind).1.symm.trans badData) (by decide)
  · cases member

end Judge

end Foghorn.Core
