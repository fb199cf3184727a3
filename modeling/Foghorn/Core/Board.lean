import Foghorn.Std.Seen
import Foghorn.Core.Json

/-!
# What the scorer publishes

Scores, verdicts and items that need attention, and the three tables that hold them. A
score is replaced under its indexer and window; verdicts and items are findings, stamped
with when they were first and last seen.
-/

namespace Foghorn.Core

open Foghorn.Std

inductive Severity where
  | critical
  | high
  | medium
  | low
deriving DecidableEq

/-- The text a severity is stored as. -/
def Severity.asStr : Severity → String
  | critical => "critical"
  | high => "high"
  | medium => "medium"
  | low => "low"

/-- A composite score of an indexer over a rolling window. -/
structure IndexerScore where
  indexerAddress : String
  windowDays : Int
  composite : ℚ
  grade : String
  rated : Bool
  correctnessScore : Option ℚ
  availabilityScore : Option ℚ
  freshnessScore : Option ℚ
  coverageScore : Option ℚ
  valueScore : Option ℚ
  sybilFlag : Bool
  sybilClusterId : Option String
  probeCount : Int
  reasons : List String
  subScores : Json

def IndexerScore.key (score : IndexerScore) : String × Int :=
  (score.indexerAddress, score.windowDays)

structure Verdict where
  indexerAddress : String
  kind : String
  severity : Severity
  title : String
  evidence : Json
  windowDays : Option Int

def Verdict.key (verdict : Verdict) : String × String := (verdict.indexerAddress, verdict.kind)

/-- An entry of the triage list; no deployment means the whole indexer. -/
structure AttentionItem where
  indexerAddress : String
  kind : String
  deploymentId : String
  severity : Severity
  urgency : ℚ
  title : String
  detail : Json

def AttentionItem.key (item : AttentionItem) : String × String × String :=
  (item.indexerAddress, item.kind, item.deploymentId)

/-- `indexer_score`. -/
structure ScoreRow where
  score : IndexerScore
  computedAt : Int

def ScoreRow.key (row : ScoreRow) : String × Int := row.score.key

/-- What the scorer reads of an indexer's profile. -/
structure Profile where
  ensName : Option String
  selfStakeGrt : Option ℚ
  allocationCount : Option Int
  qosSuccessRate : Option ℚ
  qosBlocksBehind : Option ℚ
  qosQueryCount : Option Int
  reoStatus : Option String
deriving DecidableEq

/-- What `unwrap_or_default` gives for an indexer without a profile. -/
def Profile.default : Profile := ⟨none, none, none, none, none, none, none⟩

/-- `indexer_profile`. -/
structure ProfileRow where
  indexerAddress : String
  profile : Profile
deriving DecidableEq

abbrev ProfileTable := Table ProfileRow String ProfileRow.indexerAddress

/-- The tables that only the scorer writes. -/
structure Board where
  indexerScore : Table ScoreRow (String × Int) ScoreRow.key
  verdict : SeenTable Verdict (String × String) Verdict.key
  attentionItem : SeenTable AttentionItem (String × String × String) AttentionItem.key

/-- The board before the first cycle. -/
def Board.empty : Board := ⟨Table.empty, Table.empty, Table.empty⟩

end Foghorn.Core
