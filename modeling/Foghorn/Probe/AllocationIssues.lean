import Foghorn.Core.Judged
import Foghorn.Core.Score

/-!
# Serving health by deployment

What the scorer reads from the QoS table: how many deployments of an indexer are measured
and how many serve errors, the lag of an indexer, and the per-deployment findings of
`detect_allocation_issues`, which come in the order it writes them. Queries return their
rows and maps iterate in orders nobody chooses.
-/

namespace Foghorn.Probe

open Foghorn.Std Foghorn.Core

def daysMicros (days : Int) : Int := days * 86400 * microsPerSecond

/-- The longest configured window, in days. -/
def longestWindow (cfg : ScoringConfig) : Int := cfg.windows.max?.getD 30

def qosSince (since : Int) (db : Db) : List QosRow :=
  db.foghornQos.rows.filter fun row => since ≤ row.bucketStart

/-- The rows of one lowercased indexer and deployment. -/
abbrev Serving := (String × String) × List QosRow

def servings (crates : Crates) (rows : List QosRow) : List Serving :=
  groupBy (fun row => (crates.lower row.indexerAddress, row.deploymentId)) rows

def probesOf (rows : List QosRow) : Nat := (rows.map fun row => row.measure.queryCount).sum

def okOf (rows : List QosRow) : Nat := (rows.map fun row => row.measure.numIndexer200Responses).sum

/-- `probes >= $2`. -/
def isMeasured (cfg : ScoringConfig) (serving : Serving) : Bool :=
  cfg.servingMinProbes ≤ (probesOf serving.2 : Int)

def successRate (serving : Serving) : ℚ := okOf serving.2 / probesOf serving.2

/-- `probes >= $2 AND ok / probes < 0.5`. -/
def isErroring (cfg : ScoringConfig) (serving : Serving) : Bool :=
  isMeasured cfg serving && successRate serving < 1 / 2

/-- Whether some measured group has no probes, which divides by zero. -/
def dividesByZero (cfg : ScoringConfig) (groups : List Serving) : Bool :=
  groups.any fun serving => isMeasured cfg serving && probesOf serving.2 = 0

/-- `load_alloc_health`: measured and erroring deployments by indexer; none on an error. -/
def loadAllocHealth (crates : Crates) (cfg : ScoringConfig) (now : Int) (db : Db) :
    Option (Table (String × Int × Int) String Prod.fst) :=
  let perDep := servings crates (qosSince (now - daysMicros (longestWindow cfg)) db)
  if dividesByZero cfg perDep then none
  else some (mapOfPairs ((groupBy (fun serving => serving.1.1) perDep).map fun group =>
    (group.1, (group.2.countP (isMeasured cfg) : Int), (group.2.countP (isErroring cfg) : Int))))

/-- `load_measured_lag`: the mean lag of an indexer over a day. -/
def loadMeasuredLag (now : Int) (db : Db) : Table (String × ℚ) String Prod.fst :=
  let measured := (qosSince (now - daysMicros 1) db).filter fun row =>
    row.measure.avgIndexerBlocksBehind.isSome
  mapOfPairs ((groupBy QosRow.indexerAddress measured).filterMap fun group =>
    (average (group.2.filterMap fun row => row.measure.avgIndexerBlocksBehind)).map fun lag =>
      (group.1, lag))

/-- From this many deployments on an indexer gets one item for all. -/
def rollupThreshold : Nat := 5

def perDeploymentLagMargin : ℚ := 50000

structure ServingErrorRow where
  indexerAddress : String
  deploymentId : String
  successRate : ℚ
  queryCount : Nat

structure BehindRow where
  indexerAddress : String
  deploymentId : String
  blocksBehind : ℚ
  floor : ℚ

/-- The orders in which the two queries return equal rows and the two maps iterate. -/
structure IssueOrders where
  servings : IterOrder Serving
  erroringIndexers : IterOrder (String × List ServingErrorRow)
  lags : IterOrder Serving
  behindIndexers : IterOrder (String × List BehindRow)

/-- Deployments that serve errors, `ORDER BY addr, probes DESC`; none on an error. -/
def servingErrorRows (crates : Crates) (cfg : ScoringConfig) (orders : IssueOrders) (now : Int)
    (db : Db) : Option (List ServingErrorRow) :=
  let groups := orders.servings.arrange
    (servings crates (qosSince (now - daysMicros (longestWindow cfg)) db))
  if dividesByZero cfg groups then none
  else
    let rows := (groups.filter (isErroring cfg)).map fun serving =>
      ⟨serving.1.1, serving.1.2, successRate serving, probesOf serving.2⟩
    some (rows.mergeSort fun first second =>
      first.indexerAddress < second.indexerAddress ||
        first.indexerAddress = second.indexerAddress && second.queryCount ≤ first.queryCount)

/-- One item for an indexer that fails on many deployments, else one for each. -/
def servingErrorItems (entry : String × List ServingErrorRow) : List AttentionItem :=
  let (indexer, deps) := entry
  if rollupThreshold ≤ deps.length then
    [{ indexerAddress := indexer
       kind := "serving-errors"
       deploymentId := ""
       severity := .critical
       urgency := 100 + min (deps.length : ℚ) 50
       title := s!"Serving errors across {deps.length} deployments (indexer-wide)"
       detail := .object [("deployment_count", .ofInt deps.length),
         ("total_probes", .ofInt (deps.map ServingErrorRow.queryCount).sum),
         ("deployments", .array (deps.map fun row => .string row.deploymentId))] }]
  else
    deps.map fun row =>
      { indexerAddress := indexer
        kind := "serving-errors-deployment"
        deploymentId := row.deploymentId
        severity := .critical
        urgency := 95 + (1 - row.successRate) * 5
        title := "Serving errors on a deployment (" ++ showRounded (row.successRate * 100) ++
          s!"% success over {row.queryCount} probes)"
        detail := .object [("success_rate", .ofRat row.successRate),
          ("probe_count", .ofInt row.queryCount)] }

/-- `recent`: the mean lag of an indexer on a deployment, over the rows that have one. -/
def lags (crates : Crates) (cfg : ScoringConfig) (now : Int) (db : Db) : List Serving :=
  servings crates ((qosSince (now - daysMicros (longestWindow cfg)) db).filter fun row =>
    row.measure.avgIndexerBlocksBehind.isSome)

def lagOf (serving : Serving) : ℚ :=
  (average (serving.2.filterMap fun row => row.measure.avgIndexerBlocksBehind)).getD 0

/-- `baseline`: the lags of the measured peers on a deployment. -/
def peerLags (cfg : ScoringConfig) (recent : List Serving) (deployment : String) : List ℚ :=
  (recent.filter fun serving => serving.1.2 = deployment && isMeasured cfg serving).map lagOf

/-- Deployments where an indexer trails its freshest peer, `ORDER BY addr, blocks_behind DESC`. -/
def behindRows (crates : Crates) (cfg : ScoringConfig) (orders : IssueOrders) (now : Int)
    (db : Db) : List BehindRow :=
  let recent := orders.lags.arrange (lags crates cfg now db)
  let rows := recent.filterMap fun serving =>
    (peerLags cfg recent serving.1.2).min?.bind fun floor =>
      if 3 ≤ (peerLags cfg recent serving.1.2).length ∧ isMeasured cfg serving ∧
          floor + perDeploymentLagMargin < lagOf serving ∧ perDeploymentLagMargin < lagOf serving then
        some ⟨serving.1.1, serving.1.2, lagOf serving, floor⟩
      else none
  rows.mergeSort fun first second =>
    first.indexerAddress < second.indexerAddress ||
      first.indexerAddress = second.indexerAddress && second.blocksBehind ≤ first.blocksBehind

def behindItems (entry : String × List BehindRow) : List AttentionItem :=
  let (indexer, deps) := entry
  if rollupThreshold ≤ deps.length then
    let worst := (deps.map BehindRow.blocksBehind).foldl max 0
    [{ indexerAddress := indexer
       kind := "behind-deployments"
       deploymentId := ""
       severity := .high
       urgency := 65 + min (deps.length : ℚ) 30
       title := s!"Behind on {deps.length} deployments (worst ~" ++ showRounded worst ++ " blocks)"
       detail := .object [("deployment_count", .ofInt deps.length),
         ("worst_blocks_behind", .ofRat worst),
         ("deployments", .array (deps.map fun row => .string row.deploymentId))] }]
  else
    deps.map fun row =>
      { indexerAddress := indexer
        kind := "behind-deployment"
        deploymentId := row.deploymentId
        severity := .high
        urgency := 60 + min (row.blocksBehind / 100000) 35
        title := "Behind on a deployment (~" ++ showRounded row.blocksBehind ++
          " blocks; freshest serving peer at " ++ showRounded row.floor ++ ")"
        detail := .object [("blocks_behind", .ofRat row.blocksBehind), ("peer_floor", .ofRat row.floor)] }

/-- The kinds of item that only this check raises. -/
def allocationKinds : List String :=
  ["serving-errors", "serving-errors-deployment", "behind-deployments", "behind-deployment"]

/-- The items of the serving check, in the order it writes them; none on an error. -/
def servingErrors (crates : Crates) (cfg : ScoringConfig) (orders : IssueOrders) (now : Int)
    (db : Db) : Option (List AttentionItem) :=
  (servingErrorRows crates cfg orders now db).map fun rows =>
    (orders.erroringIndexers.arrange
      (pushAll (rows.map fun row => (row.indexerAddress, row))).rows).flatMap servingErrorItems

/-- The items of the lag check, in the order it writes them. -/
def behindDeployments (crates : Crates) (cfg : ScoringConfig) (orders : IssueOrders) (now : Int)
    (db : Db) : List AttentionItem :=
  (orders.behindIndexers.arrange
    (pushAll ((behindRows crates cfg orders now db).map fun row => (row.indexerAddress, row))).rows)
      |>.flatMap behindItems

section Items

variable {crates : Crates} {cfg : ScoringConfig} {orders : IssueOrders} {now : Int} {db : Db}
  {item : AttentionItem}

/-- What an item of this check says: its kind is one of the check's own, and its indexer is in
the QoS rows that the check read. -/
structure FromServing (crates : Crates) (cfg : ScoringConfig) (now : Int) (db : Db)
    (item : AttentionItem) : Prop where
  kind : item.kind ∈ allocationKinds
  indexer : ∃ row ∈ qosSince (now - daysMicros (longestWindow cfg)) db,
    crates.lower row.indexerAddress = item.indexerAddress

/-- The entries of a map of pushed rows stand under a key of one of them. -/
theorem exists_of_mem_arrange_pushAll {Row : Type} {order : IterOrder (String × List Row)}
    {indexer : Row → String} {rows : List Row} {entry : String × List Row}
    (member : entry ∈ order.arrange (pushAll (rows.map fun row => (indexer row, row))).rows) :
    ∃ row ∈ rows, indexer row = entry.1 := by
  obtain ⟨key, values⟩ := entry
  rw [IterOrder.mem_arrange] at member
  obtain ⟨rfl, nonempty⟩ := (mem_pushAll _ _ _).mp member
  obtain ⟨value, held⟩ := List.exists_mem_of_ne_nil _ nonempty
  simp only [valuesAt, List.mem_map, List.mem_filter] at held
  obtain ⟨_, ⟨⟨row, listed, rfl⟩, same⟩, _⟩ := held
  exact ⟨row, listed, of_decide_eq_true same⟩

private theorem exists_of_mem_servings {rows : List QosRow} {serving : Serving}
    (member : serving ∈ servings crates rows) :
    ∃ row ∈ rows, crates.lower row.indexerAddress = serving.1.1 := by
  obtain ⟨key, group⟩ := serving
  obtain ⟨⟨row, listed, rfl⟩, _⟩ := mem_groupBy.mp member
  exact ⟨row, listed, rfl⟩

private theorem exists_of_mem_servingErrorRows {rows : List ServingErrorRow} {row : ServingErrorRow}
    (read : servingErrorRows crates cfg orders now db = some rows) (member : row ∈ rows) :
    ∃ qos ∈ qosSince (now - daysMicros (longestWindow cfg)) db,
      crates.lower qos.indexerAddress = row.indexerAddress := by
  unfold servingErrorRows at read
  dsimp only at read
  split at read
  · cases read
  · obtain rfl := Option.some.inj read
    rw [List.mem_mergeSort] at member
    obtain ⟨serving, erroring, rfl⟩ := List.mem_map.mp member
    rw [List.mem_filter, IterOrder.mem_arrange] at erroring
    exact exists_of_mem_servings erroring.1

private theorem exists_of_mem_behindRows {row : BehindRow}
    (member : row ∈ behindRows crates cfg orders now db) :
    ∃ qos ∈ qosSince (now - daysMicros (longestWindow cfg)) db,
      crates.lower qos.indexerAddress = row.indexerAddress := by
  rw [behindRows, List.mem_mergeSort, List.mem_filterMap] at member
  obtain ⟨serving, listed, behind⟩ := member
  rw [IterOrder.mem_arrange] at listed
  obtain ⟨floor, _, trails⟩ := Option.bind_eq_some_iff.mp behind
  split at trails
  · obtain rfl := Option.some.inj trails
    obtain ⟨qos, kept, same⟩ := exists_of_mem_servings listed
    exact ⟨qos, (List.mem_filter.mp kept).1, same⟩
  · cases trails

/-- A serving-error item comes from a measured serving of its indexer. -/
theorem fromServing_of_mem_servingErrors {items : List AttentionItem}
    (read : servingErrors crates cfg orders now db = some items) (member : item ∈ items) :
    FromServing crates cfg now db item := by
  obtain ⟨rows, readRows, rfl⟩ := Option.map_eq_some_iff.mp read
  obtain ⟨⟨indexer, deps⟩, entry, written⟩ := List.mem_flatMap.mp member
  obtain ⟨row, listed, rfl⟩ := exists_of_mem_arrange_pushAll entry
  have known := exists_of_mem_servingErrorRows readRows listed
  unfold servingErrorItems at written
  dsimp only at written
  split at written
  · obtain rfl := List.mem_singleton.mp written
    exact ⟨by simp [allocationKinds], known⟩
  · obtain ⟨dep, _, rfl⟩ := List.mem_map.mp written
    exact ⟨by simp [allocationKinds], known⟩

/-- An item about blocks behind comes from a measured serving of its indexer. -/
theorem fromServing_of_mem_behindDeployments
    (member : item ∈ behindDeployments crates cfg orders now db) :
    FromServing crates cfg now db item := by
  obtain ⟨⟨indexer, deps⟩, entry, written⟩ := List.mem_flatMap.mp member
  obtain ⟨row, listed, rfl⟩ := exists_of_mem_arrange_pushAll entry
  have known := exists_of_mem_behindRows listed
  unfold behindItems at written
  dsimp only at written
  split at written
  · obtain rfl := List.mem_singleton.mp written
    exact ⟨by simp [allocationKinds], known⟩
  · obtain ⟨dep, _, rfl⟩ := List.mem_map.mp written
    exact ⟨by simp [allocationKinds], known⟩

end Items

end Foghorn.Probe
