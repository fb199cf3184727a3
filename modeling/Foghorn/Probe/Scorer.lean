import Foghorn.Probe.AllocationIssues
import Foghorn.Probe.ProbeAgg
import Mathlib.Data.List.Sort

/-!
# A scoring cycle

A cycle assembles the inputs of every indexer in every window, judges them, writes the
scores, verdicts and items one statement at a time, adds the findings of the
per-deployment check, and sweeps the findings it did not stamp. Other loops run beside
it, so each read is of the database at a moment of its own. A cycle can stop after any
statement; two of its checks can fail without stopping it.
-/

namespace Foghorn.Probe

open Foghorn.Std Foghorn.Core

/-- What a statement of the scorer reads. -/
structure Moment where
  now : Int
  db : Db
  profile : ProfileTable

/-- Indexers of a swarm cluster, with its id and the confidence in it. -/
abbrev SybilMap := Table (String × String × ℚ) String Prod.fst

/-- `load_profiles`, under lowercased addresses. -/
def loadProfiles (crates : Crates) (order : IterOrder ProfileRow) (moment : Moment) :
    Table (String × Profile) String Prod.fst :=
  mapOfPairs ((order.arrange moment.profile.rows).map fun row =>
    (crates.lowercase row.indexerAddress, row.profile))

/-- `assemble`. -/
def assemble (address : String) (window : Int) (agg recent : AggMap)
    (profiles : Table (String × Profile) String Prod.fst)
    (allocHealth : Table (String × Int × Int) String Prod.fst) (sybilMap : SybilMap)
    (measuredLag : Table (String × ℚ) String Prod.fst) : ScoreInputs :=
  let a := agg.get address
  let r := recent.get address
  let p := ((profiles.lookup address).map Prod.snd).getD Profile.default
  let health := ((allocHealth.lookup address).map Prod.snd).getD (0, 0)
  let sybil := (sybilMap.lookup address).map Prod.snd
  { indexerAddress := address
    windowDays := window
    probesAnswered := a.probesAnswered
    correctnessFaults := a.faults
    errorObservations := a.errors
    totalObservations := a.total
    recentObservations := r.total
    recentErrors := r.errors
    recentFaults := r.faults
    selfStakeGrt := p.selfStakeGrt
    allocationCount := p.allocationCount
    qosSuccessRate := p.qosSuccessRate
    qosBlocksBehind := p.qosBlocksBehind
    measuredBlocksBehind := (measuredLag.lookup address).map Prod.snd
    qosQueryCount := p.qosQueryCount
    reoStatus := p.reoStatus
    ensName := p.ensName
    qosDeploymentsMeasured := health.1
    qosDeploymentsErroring := health.2
    sybilClusterId := sybil.map Prod.fst
    sybilConfidence := sybil.map Prod.snd }

/-- The statements by which a cycle writes to the board. -/
inductive BoardStatement where
  | upsertScore (score : IndexerScore)
  | upsertVerdict (verdict : Verdict)
  | upsertAttention (item : AttentionItem)
  | sweepVerdicts (start : Int)
  | sweepAttention (start : Int)

namespace BoardStatement

/-- A statement executed at a time. -/
def exec : Int × BoardStatement → Board → Board
  | (now, .upsertScore score), board =>
    { board with
      indexerScore := board.indexerScore.upsert ⟨score, now⟩ (fun _ => ⟨score, now⟩) (fun _ _ => rfl) }
  | (now, .upsertVerdict verdict), board =>
    { board with verdict := board.verdict.report (now, verdict) }
  | (now, .upsertAttention item), board =>
    { board with attentionItem := board.attentionItem.report (now, item) }
  | (_, .sweepVerdicts start), board => { board with verdict := board.verdict.sweep start }
  | (_, .sweepAttention start), board => { board with attentionItem := board.attentionItem.sweep start }

end BoardStatement

/-- One indexer in one window, with the position of the window among the sorted ones. -/
structure Evaluation where
  address : String
  window : Int
  position : Nat

def Evaluation.key (evaluation : Evaluation) : String × Int :=
  (evaluation.address, evaluation.window)

/-- One call of `run_score_once`: when, what it reads at which moments, in which orders its
queries return and its maps iterate, and what fails. -/
structure ScoreCycle where
  cfg : ScoringConfig
  /-- `run_start`, by the clock of the probe. -/
  start : Int
  /-- The time of each write, by the clock of the database. -/
  clock : Nat → Int
  clocksAgree : ∀ n, start ≤ clock n
  /-- What sybil detection returned; nothing when it failed. -/
  sybil : Option SybilMap
  profilesAt : Moment
  healthAt : Moment
  lagAt : Moment
  recentAt : Moment
  windowAt : Nat → Moment
  servingAt : Moment
  behindAt : Moment
  profileOrder : IterOrder ProfileRow
  recentOrder : IterOrder (String × List Evidence)
  aggOrder : Nat → IterOrder (String × List Evidence)
  keyOrder : Nat → IterOrder String
  issueOrders : IssueOrders
  /-- After how many writes the per-deployment check failed, if it did. -/
  issuesStop : Option Nat
  /-- After how many writes the cycle failed, if it did. -/
  stop : Option Nat

namespace ScoreCycle

variable (crates : Crates) (cycle : ScoreCycle)

/-- The windows, sorted; thirty days if none is configured. -/
def windows : List Int :=
  (if cycle.cfg.windows.isEmpty then [30] else cycle.cfg.windows).insertionSort (· ≤ ·)

/-- The longest window, which the findings are derived from. -/
def primary : Int := cycle.windows.max?.getD 30

def profiles : Table (String × Profile) String Prod.fst :=
  loadProfiles crates cycle.profileOrder cycle.profilesAt

def allocHealth : Option (Table (String × Int × Int) String Prod.fst) :=
  loadAllocHealth crates cycle.cfg cycle.healthAt.now cycle.healthAt.db

def recent : AggMap :=
  loadProbeAgg crates cycle.recentOrder (cycle.recentAt.now - 6 * 3600 * microsPerSecond)
    cycle.recentAt.db

/-- The probe aggregate of the window at a position. -/
def agg (window : Int) (position : Nat) : AggMap :=
  loadProbeAgg crates (cycle.aggOrder position)
    ((cycle.windowAt position).now - daysMicros window) (cycle.windowAt position).db

/-- The indexers with a profile or a probe in the window. -/
def keys (window : Int) (position : Nat) : List String :=
  (cycle.keyOrder position).arrange
    (((cycle.profiles crates).rows.map Prod.fst ++ (cycle.agg crates window position).rows.map
      Prod.fst).dedup)

def evaluations : List Evaluation :=
  cycle.windows.zipIdx.flatMap fun (window, position) =>
    (cycle.keys crates window position).map fun address => ⟨address, window, position⟩

def inputs (evaluation : Evaluation) : ScoreInputs :=
  assemble evaluation.address evaluation.window
    (cycle.agg crates evaluation.window evaluation.position) (cycle.recent crates)
    (cycle.profiles crates) ((cycle.allocHealth crates).getD Table.empty)
    (cycle.sybil.getD Table.empty) (loadMeasuredLag cycle.lagAt.now cycle.lagAt.db)

def outcome (evaluation : Evaluation) : ScoreOutcome :=
  judge (cycle.inputs crates evaluation) cycle.cfg

/-- The findings of an evaluation are published for the longest window alone. -/
def isPrimary (evaluation : Evaluation) : Bool := evaluation.window = cycle.primary

def writes (evaluation : Evaluation) : List BoardStatement :=
  let outcome := cycle.outcome crates evaluation
  .upsertScore outcome.score ::
    if cycle.isPrimary evaluation then
      outcome.verdicts.map .upsertVerdict ++ outcome.attention.map .upsertAttention
    else []

/-- `detect_allocation_issues`: the items it writes, and whether it succeeds. -/
def issues : List AttentionItem × Bool :=
  match servingErrors crates cycle.cfg cycle.issueOrders cycle.servingAt.now cycle.servingAt.db with
  | none => ([], false)
  | some serving =>
    let items := serving ++
      behindDeployments crates cycle.cfg cycle.issueOrders cycle.behindAt.now cycle.behindAt.db
    match cycle.issuesStop with
    | none => (items, true)
    | some written => (items.take written, false)

/-- The statements of a cycle; a load that fails ends it before the first. -/
def program : List BoardStatement :=
  match cycle.allocHealth crates with
  | none => []
  | some _ =>
    (cycle.evaluations crates).flatMap (cycle.writes crates) ++
      (cycle.issues crates).1.map .upsertAttention ++
      [.sweepVerdicts cycle.start, .sweepAttention cycle.start]

/-- Statements with the times at which they execute. -/
def stamped (statements : List BoardStatement) : List (Int × BoardStatement) :=
  statements.mapIdx fun n statement => (cycle.clock n, statement)

/-- `run_score_once`, as far as it comes. -/
def run (board : Board) : Board :=
  runAll BoardStatement.exec
    (match cycle.stop with
      | none => cycle.stamped (cycle.program crates)
      | some executed => (cycle.stamped (cycle.program crates)).take executed) board

/-- Everything but the checks that may fail on their own came to its end. -/
def Completes : Prop := (cycle.allocHealth crates).isSome ∧ cycle.stop = none

/-- Every step succeeded. -/
def Succeeds : Prop :=
  cycle.Completes crates ∧ cycle.sybil.isSome ∧ (cycle.issues crates).2 = true

/-- The window is configured, and the indexer has a profile or a probe in it. -/
def Lists (key : String × Int) : Prop :=
  ∃ position, cycle.windows[position]? = some key.2 ∧
    ((cycle.profiles crates).holds key.1 ∨ (cycle.agg crates key.2 position).holds key.1)

/-- The scores a cycle writes, in order. -/
def scores : List IndexerScore :=
  (cycle.evaluations crates).map fun evaluation => (cycle.outcome crates evaluation).score

/-- The verdicts a cycle emits, in order. -/
def verdicts : List Verdict :=
  ((cycle.evaluations crates).filter cycle.isPrimary).flatMap fun evaluation =>
    (cycle.outcome crates evaluation).verdicts

/-- The items that the judgements of a cycle emit, in order. -/
def judgedItems : List AttentionItem :=
  ((cycle.evaluations crates).filter cycle.isPrimary).flatMap fun evaluation =>
    (cycle.outcome crates evaluation).attention

/-- The items a cycle emits, in order. -/
def attention : List AttentionItem := cycle.judgedItems crates ++ (cycle.issues crates).1

end ScoreCycle

end Foghorn.Probe
