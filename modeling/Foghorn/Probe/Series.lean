import Foghorn.Std.Rollup
import Foghorn.Probe.AllocationIssues
import Foghorn.Probe.Convergence
import Foghorn.Probe.Feed

/-!
# The series of the QoS table

The bucket width is part of the key, so the table keeps one series of rows for each width
it was ever rolled at, over the same observations. Readers take the rows of a region
together, whatever their width. A series that is caught up recombines to the judged
observations of the region (`sum_seriesIn`), and a row of any other width counts some of
them again, so a region counts each observation once exactly when it holds one series
(`counted_once_iff_soleSeries`).
-/

namespace Foghorn.Probe

open Foghorn.Std Foghorn.Core

/-- An event stores no observation but one that an executor measured. -/
def Event.Measured (event : Event) : Prop :=
  ∀ row, event = .store (.insertObservation row) →
    ∃ probeId obs, row = RawObservation.toRow probeId obs

/-- Any interleaving of the loops from the migrated database, each step under one of the
allowed settings, and `reroll_all` under one of them at any time. -/
inductive History (allowed : QosRollupConfig → Prop) : System → Prop where
  | start (clock : Int) : History allowed ⟨clock, Db.empty, [], .idle⟩
  | event {s s' cfg event} (before : History allowed s) (set : allowed cfg)
      (measured : Event.Measured event) (moved : Step cfg s event s') : History allowed s'
  | reroll {s cfg} (before : History allowed s) (set : allowed cfg) :
    History allowed { s with db := (rerollAll cfg s.clock s.db).1 }

/-- What every history keeps: rows count something, under an allowed setting, and answers
have a latency. -/
structure WellRolled (allowed : QosRollupConfig → Prop) (db : Db) : Prop where
  counted : ∀ row ∈ db.foghornQos, 0 < row.measure.queryCount
  rolled : ∀ row ∈ db.foghornQos, ∃ cfg, allowed cfg ∧ row.bucketSecs = cfg.width
  timed : ∀ o ∈ db.observation, o.latencyMs.isSome

section Histories

variable {allowed : QosRollupConfig → Prop} {cfg : QosRollupConfig} {db db' : Db}

private theorem wellRolled_empty : WellRolled allowed Db.empty where
  counted := fun row member => absurd member (Table.not_mem_empty row)
  rolled := fun row member => absurd member (Table.not_mem_empty row)
  timed := fun o member => absurd member (Table.not_mem_empty o)

/-- What touches neither the rollup nor the answers keeps the series well rolled. -/
theorem WellRolled.frame (well : WellRolled allowed db) (rows : db'.foghornQos = db.foghornQos)
    (answers : db'.observation = db.observation) : WellRolled allowed db' := by
  constructor
  · rw [rows]
    exact well.counted
  · rw [rows]
    exact well.rolled
  · rw [answers]
    exact well.timed

/-- A row that a roll leaves under a key counts the answers of a group that has some. -/
theorem counted_of_rolledTo {now : Int} {key : QosKey} {row : QosRow}
    (left : rolledTo cfg now db key = some row) :
    0 < row.measure.queryCount ∧ row.bucketSecs = cfg.width := by
  obtain ⟨fresh, wanted, rfl⟩ := Option.map_eq_some_iff.mp left
  obtain ⟨nonempty, rfl⟩ := wantedRow_eq_some_iff.mp wanted
  have counts : 0 < (groupRows cfg db (QosKey.group key)).length := List.length_pos_iff.mpr nonempty
  cases db.foghornQos.lookup key <;> exact ⟨counts, rfl⟩

/-- Rolling some keys and leaving the others keeps a table well. -/
theorem WellRolled.roll (well : WellRolled allowed db) (set : allowed cfg) (now : Int)
    (answers : db'.observation = db.observation)
    (each : ∀ key, db'.foghornQos.lookup key = rolledTo cfg now db key ∨
      db'.foghornQos.lookup key = db.foghornQos.lookup key) : WellRolled allowed db' := by
  have cases_ : ∀ row ∈ db'.foghornQos, row ∈ db.foghornQos ∨
      0 < row.measure.queryCount ∧ row.bucketSecs = cfg.width := by
    intro row member
    have found := Table.lookup_eq_some_iff.mpr ⟨member, rfl⟩
    rcases each row.key with rolled | kept
    · exact Or.inr (counted_of_rolledTo (rolled.symm.trans found))
    · exact Or.inl (Table.mem_of_lookup (kept.symm.trans found))
  constructor
  · intro row member
    rcases cases_ row member with old | new
    · exact well.counted row old
    · exact new.1
  · intro row member
    rcases cases_ row member with old | new
    · exact well.rolled row old
    · exact ⟨cfg, set, new.2⟩
  · rw [answers]
    exact well.timed

/-- Rolling a range up keeps the series well rolled. -/
theorem WellRolled.rollRange (well : WellRolled allowed db) (set : allowed cfg)
    (positive : 0 < cfg.bucketSecs) (now lower : Int) (upper : Option Int)
    (deployment : Option String) :
    WellRolled allowed (rollRange cfg now lower upper deployment db).1 := by
  refine well.roll set now (by rw [rollRange_frame]) fun key => ?_
  rw [lookup_rollRange positive]
  split
  · exact Or.inl rfl
  · exact Or.inr rfl

/-- A full re-roll keeps the series well rolled. -/
theorem WellRolled.rerollAll (well : WellRolled allowed db) (set : allowed cfg)
    (positive : 0 < cfg.bucketSecs) (now : Int) : WellRolled allowed (rerollAll cfg now db).1 := by
  refine well.roll set now (by rw [rerollAll_frame]) fun key => ?_
  obtain ⟨inside, outside⟩ := lookup_rerollAll positive now db key
  by_cases walked : key.2.2.2 = cfg.width ∧ Walked cfg now db key.2.2.1
  · exact Or.inl (inside walked)
  · exact Or.inr (outside walked)

/-- Storing a measured statement keeps the series well rolled. -/
theorem WellRolled.store (well : WellRolled allowed db) {statement : StoreStatement}
    (measured : (Event.store statement).Measured) : WellRolled allowed (statement.exec db) := by
  cases statement with
  | insertProbe row => exact well.frame rfl rfl
  | insertDivergence row => exact well.frame rfl rfl
  | insertObservation row =>
    refine ⟨well.counted, well.rolled, fun o member => ?_⟩
    rcases Table.mem_insertNew.mp member with old | ⟨_, rfl⟩
    · exact well.timed o old
    · obtain ⟨probeId, obs, rfl⟩ := measured o rfl
      rfl

/-- Every measured step of the system keeps the series well rolled. -/
theorem WellRolled.step (well : WellRolled allowed db) {s s' : System} (current : s.db = db)
    (set : allowed cfg) {event : Event} (measured : event.Measured) (moved : Step cfg s event s') :
    WellRolled allowed s'.db := by
  subst current
  cases moved with
  | store statement => exact well.store measured
  | rollWindow lower begun positive => exact well.rollRange set positive _ _ _ _
  | rollRequest head rest next positive => exact well.rollRange set positive _ _ _ _
  | detect statement rest next => cases statement <;> exact well.frame rfl rfl
  | tick | beginDetect | beginPass | listRequests | endPass | failPass => exact well
  | attributed | missing | deleteRequest => exact well.frame rfl rfl

/-- Every state of a history is well. -/
theorem History.wellRolled (positive : ∀ cfg, allowed cfg → 0 < cfg.bucketSecs) {s : System}
    (history : History allowed s) : WellRolled allowed s.db := by
  induction history with
  | start clock => exact wellRolled_empty
  | event before set measured moved ih => exact ih.step rfl set measured moved
  | reroll before set ih => exact ih.rerollAll set (positive _ set) _

end Histories

/-- Indexer, deployment and bucket of a row. -/
def cellOf (row : QosRow) : QosGroup := (row.indexerAddress, row.deploymentId, row.bucketStart)

/-- The groups that a reader takes together. -/
abbrev Region := QosGroup → Bool

/-- The rows of a region, of whatever width. -/
def rowsIn (db : Db) (region : Region) : List QosRow :=
  db.foghornQos.rows.filter fun row => region (cellOf row)

/-- The rows of a region in one series. -/
def seriesIn (cfg : QosRollupConfig) (db : Db) (region : Region) : List QosRow :=
  (rowsIn db region).filter fun row => row.bucketSecs = cfg.width

/-- The series of a setting holds in a region what the observations give there. -/
def CaughtUp (cfg : QosRollupConfig) (db : Db) (region : Region) : Prop :=
  ∀ group, region group → storedMeasure cfg db group = wantedMeasure cfg db group

/-- A region holds no row of another width. -/
def SoleSeries (cfg : QosRollupConfig) (db : Db) (region : Region) : Prop :=
  ∀ row ∈ rowsIn db region, row.bucketSecs = cfg.width

/-- The judged observations of some indexers, deployments and dispatch times. -/
def judgedWhere (chosen : String → String → Int → Bool) (db : Db) : List Evidence :=
  db.observation.rows.filterMap fun o =>
    (db.probe.lookup o.probeId).bind fun p =>
      if db.isEvidence o ∧ chosen (db.identity o.indexerAddress) p.deploymentId p.dispatchedAt then
        some (o, p)
      else none

/-- A region says of a bucket what is chosen of each time in it. -/
def Locates (cfg : QosRollupConfig) (region : Region) (chosen : String → String → Int → Bool) : Prop :=
  ∀ indexer deployment time,
    region (indexer, deployment, floorTo cfg.bucketMicros time) = chosen indexer deployment time

/-- An answer without an error and with status 200. -/
def succeeded (evidence : Evidence) : Bool :=
  evidence.1.errorClass.isNone && evidence.1.httpStatus = some 200

/-- An answer that a clear majority can be held against, on a deployment that is not flagged. -/
def isComparable (db : Db) (evidence : Evidence) : Bool :=
  evidence.1.responseHash.isSome && !db.flagged evidence.2.deploymentId &&
    match db.divergence.lookup evidence.1.probeId with
    | some d => decide (db.responders evidence.1.probeId < d.largestByCountSize * 2)
    | none => false

/-- The latencies of the successes. -/
def successLatencies (judged : List Evidence) : List ℚ :=
  (judged.filter succeeded).filterMap fun pair => pair.1.latencyMs.map fun latency => (latency : ℚ)

section CatchingUp

variable {cfg other : QosRollupConfig} {db : Db} {region : Region}

/-- A roll over a region catches its series up there. -/
theorem caughtUp_rollRange (positive : 0 < cfg.bucketSecs) (now lower : Int) (upper : Option Int)
    (deployment : Option String)
    (inside : ∀ group, region group → (windowRange cfg lower upper).Holds group.2.2 ∧
      forDeployment deployment group.2.1) :
    CaughtUp cfg (rollRange cfg now lower upper deployment db).1 region := by
  intro group chosen
  rw [storedMeasure_rollRange positive, if_pos (inside group chosen)]
  rfl

/-- A roll of another series leaves this one as caught up as it was. -/
theorem CaughtUp.rollRange (caughtUp : CaughtUp cfg db region) (positive : 0 < other.bucketSecs)
    (apart : other.width ≠ cfg.width) (now lower : Int) (upper : Option Int)
    (deployment : Option String) :
    CaughtUp cfg (rollRange other now lower upper deployment db).1 region := by
  intro group chosen
  have untouched : ¬ Covers other (windowRange other lower upper) deployment
      (group.1, group.2.1, group.2.2, cfg.width) := fun covered => apart covered.1.symm
  rw [storedMeasure, lookup_rollRange positive, if_neg untouched]
  exact caughtUp group chosen

/-- At the end of a drained pass every region is caught up. -/
theorem Run.caughtUp_of_drainedPass {run : Run cfg} (inTime : run.StoredInTime)
    {rolled ended : ℕ} (drained : run.DrainedPass rolled ended) (region : Region) :
    CaughtUp cfg (run.state ended).db region := fun group _ =>
  congrFun (run.fresh_of_drainedPass inTime drained) group

end CatchingUp

section Recombine

variable {cfg : QosRollupConfig} {db : Db} {region : Region}
  {chosen : String → String → Int → Bool}

/-- The rows in a region are the stored rows whose cell lies in it. -/
theorem mem_rowsIn {row : QosRow} :
    row ∈ rowsIn db region ↔ row ∈ db.foghornQos ∧ region (cellOf row) := by
  rw [rowsIn, List.mem_filter, Table.mem_rows]

private theorem mem_seriesIn {row : QosRow} :
    row ∈ seriesIn cfg db region ↔ row ∈ rowsIn db region ∧ row.bucketSecs = cfg.width := by
  rw [seriesIn, List.mem_filter, decide_eq_true_eq]

/-- A region reads from the rollup what it judges. -/
theorem filter_allObsRows (locates : Locates cfg region chosen) :
    ((allObsRows cfg db).filter fun row => region row.group) =
      (judgedWhere chosen db).map fun pair => obsRow cfg db pair.2 pair.1 := by
  rw [allObsRows, judgedWhere, List.filter_filterMap, List.map_filterMap]
  apply List.filterMap_congr
  intro o _
  cases db.probe.lookup o.probeId with
  | none => rfl
  | some p =>
    have located : region (obsRow cfg db p o).group =
        chosen (db.identity o.indexerAddress) p.deploymentId p.dispatchedAt := locates _ _ _
    by_cases evidence : db.isEvidence o
    · cases taken : chosen (db.identity o.indexerAddress) p.deploymentId p.dispatchedAt <;>
        simp [evidence, taken, located, Option.filter]
    · simp [evidence]

/-- A row of a series that is caught up measures the answers of its group. -/
theorem measure_of_caughtUp (caughtUp : CaughtUp cfg db region) {row : QosRow}
    (member : row ∈ seriesIn cfg db region) :
    row.measure = measureOf (groupRows cfg db (cellOf row)) := by
  obtain ⟨inRegion, series⟩ := mem_seriesIn.mp member
  obtain ⟨stored, chosen⟩ := mem_rowsIn.mp inRegion
  have same := caughtUp (cellOf row) chosen
  have key : ((cellOf row).1, (cellOf row).2.1, (cellOf row).2.2, cfg.width) = row.key := by
    rw [← series]
    rfl
  rw [storedMeasure, key, Table.lookup_eq_some_iff.mpr ⟨stored, rfl⟩, Option.map_some,
    wantedMeasure] at same
  cases answers : groupRows cfg db (cellOf row) with
  | nil => rw [answers] at same; cases same
  | cons head tail => rw [answers] at same; exact Option.some.inj same

/-- A series has one row for each group. -/
theorem nodup_cells_seriesIn : ((seriesIn cfg db region).map cellOf).Nodup := by
  have keys : ((seriesIn cfg db region).map QosRow.key).Nodup :=
    db.foghornQos.unique.sublist ((List.filter_sublist.trans List.filter_sublist).map _)
  rw [List.Nodup, List.pairwise_map] at keys ⊢
  refine keys.imp_of_mem fun {left right} inLeft inRight apart same => apart ?_
  have widths := (mem_seriesIn.mp inLeft).2.trans (mem_seriesIn.mp inRight).2.symm
  simp only [cellOf, Prod.mk.injEq] at same
  simp only [QosRow.key, same, widths]

/-- Every answer of a region has a row in a series that is caught up there. -/
theorem group_mem_cells_seriesIn (caughtUp : CaughtUp cfg db region) {row : ObsRow}
    (listed : row ∈ allObsRows cfg db) (chosen : region row.group) :
    row.group ∈ (seriesIn cfg db region).map cellOf := by
  have answered : row ∈ groupRows cfg db row.group := List.mem_filter.mpr ⟨listed, by simp⟩
  have wanted : (storedMeasure cfg db row.group).isSome := by
    rw [caughtUp row.group chosen, wantedMeasure]
    cases answers : groupRows cfg db row.group with
    | nil => rw [answers] at answered; cases answered
    | cons head tail => rfl
  obtain ⟨stored, found⟩ := Option.isSome_iff_exists.mp (Option.isSome_map ▸ wanted)
  have key := Table.key_of_lookup found
  simp only [QosRow.key, Prod.mk.injEq] at key
  obtain ⟨indexer, deployment, bucket, width⟩ := key
  have cell : cellOf stored = row.group := by
    simp only [cellOf, indexer, deployment, bucket]
  refine List.mem_map.mpr ⟨stored, mem_seriesIn.mpr ⟨mem_rowsIn.mpr ⟨?_, ?_⟩, width⟩, cell⟩
  · exact Table.mem_of_lookup found
  · rw [cell]
    exact chosen

/-- The groups of a series that is caught up hold each answer of the region once. -/
theorem seriesIn_perm (caughtUp : CaughtUp cfg db region) :
    ((seriesIn cfg db region).flatMap fun row => groupRows cfg db (cellOf row)).Perm
      ((allObsRows cfg db).filter fun row => region row.group) := by
  have covered : ∀ row ∈ (allObsRows cfg db).filter fun row => region row.group,
      row.group ∈ (seriesIn cfg db region).map cellOf := by
    intro row member
    obtain ⟨listed, chosen⟩ := List.mem_filter.mp member
    exact group_mem_cells_seriesIn caughtUp listed chosen
  have perm := flatMap_filter_perm ObsRow.group nodup_cells_seriesIn covered
  rw [List.flatMap_map] at perm
  refine (List.Perm.of_eq (List.flatMap_congr fun row member => ?_)).trans perm
  have inRegion := (mem_rowsIn.mp (mem_seriesIn.mp member).1).2
  rw [groupRows, List.filter_filter]
  apply List.filter_congr
  intro other _
  by_cases same : other.group = cellOf row <;> simp [same, inRegion]

/-- A count of a measure, summed over a series that is caught up, counts the judged
observations. -/
theorem sum_seriesIn (caughtUp : CaughtUp cfg db region) (locates : Locates cfg region chosen)
    (measured : QosMeasure → Nat) (counted : ObsRow → Bool) (judged : Evidence → Bool)
    (measures : ∀ rows, measured (measureOf rows) = rows.countP counted)
    (judges : ∀ o p, counted (obsRow cfg db p o) = judged (o, p)) :
    ((seriesIn cfg db region).map fun row => measured row.measure).sum =
      (judgedWhere chosen db).countP judged := by
  have counts : ((seriesIn cfg db region).map fun row => measured row.measure) =
      (seriesIn cfg db region).map fun row => (groupRows cfg db (cellOf row)).countP counted := by
    apply List.map_congr_left
    intro row member
    rw [measure_of_caughtUp caughtUp member, measures]
  have flat : ((seriesIn cfg db region).map fun row =>
      (groupRows cfg db (cellOf row)).countP counted).sum =
      ((seriesIn cfg db region).flatMap fun row => groupRows cfg db (cellOf row)).countP counted := by
    rw [List.countP_flatMap]
    rfl
  rw [counts, flat, (seriesIn_perm caughtUp).countP_eq, filter_allObsRows locates, List.countP_map]
  exact List.countP_congr fun pair _ => by rw [Function.comp_apply, judges]

/-- The latencies that the rows of a series were measured from. -/
def latencyParts (cfg : QosRollupConfig) (db : Db) (region : Region) : List (List ℚ) :=
  (seriesIn cfg db region).map fun row => measureOf.latencies (groupRows cfg db (cellOf row))

/-- Over a caught-up region the latencies in the parts are those of its successful answers. -/
theorem latencyParts_perm (caughtUp : CaughtUp cfg db region) (locates : Locates cfg region chosen) :
    (latencyParts cfg db region).flatten.Perm (successLatencies (judgedWhere chosen db)) := by
  have parts : (latencyParts cfg db region).flatten = measureOf.latencies
      ((seriesIn cfg db region).flatMap fun row => groupRows cfg db (cellOf row)) := by
    rw [measureOf.latencies, List.filter_flatMap, List.filterMap_flatMap, List.flatMap_def]
    rfl
  have judged : measureOf.latencies ((allObsRows cfg db).filter fun row => region row.group) =
      successLatencies (judgedWhere chosen db) := by
    rw [filter_allObsRows locates, measureOf.latencies, List.filter_map, List.filterMap_map]
    rfl
  rw [parts, ← judged]
  exact ((seriesIn_perm caughtUp).filter _).filterMap _

/-- Every success of a group has a latency. -/
theorem length_latencies (timed : ∀ o ∈ db.observation, o.latencyMs.isSome) (group : QosGroup) :
    (measureOf.latencies (groupRows cfg db group)).length =
      (groupRows cfg db group).countP ObsRow.ok := by
  have each : ∀ row ∈ (groupRows cfg db group).filter ObsRow.ok, row.latencyMs.isSome := by
    intro row member
    obtain ⟨o, observed, p, _, _, _, rfl⟩ :=
      mem_allObsRows.mp (List.mem_filter.mp (List.mem_filter.mp member).1).1
    exact timed o observed
  rw [measureOf.latencies, List.length_filterMap_eq_countP, List.countP_eq_length.mpr ?_,
    ← List.countP_eq_length_filter]
  intro row member
  obtain ⟨latency, measured⟩ := Option.isSome_iff_exists.mp (each row member)
  rw [measured]
  rfl

/-- A region with one series alone has all its rows in it. -/
theorem seriesIn_of_sole (sole : SoleSeries cfg db region) :
    seriesIn cfg db region = rowsIn db region :=
  List.filter_eq_self.mpr fun row member => decide_eq_true (sole row member)

/-- Over a series that is caught up, the rows of a region count each judged observation once
exactly when none of them is of another width. -/
theorem counted_once_iff_soleSeries (counted : ∀ row ∈ db.foghornQos, 0 < row.measure.queryCount)
    (caughtUp : CaughtUp cfg db region) (locates : Locates cfg region chosen) :
    ((rowsIn db region).map fun row => row.measure.queryCount).sum =
      (judgedWhere chosen db).length ↔ SoleSeries cfg db region := by
  have series : ((seriesIn cfg db region).map fun row => row.measure.queryCount).sum =
      (judgedWhere chosen db).length := by
    rw [sum_seriesIn caughtUp locates QosMeasure.queryCount (fun _ => true) (fun _ => true)
      (fun rows => by simp [measureOf]) (fun _ _ => rfl), List.countP_true]
  have split_ := ((List.filter_append_perm (fun row : QosRow => decide (row.bucketSecs = cfg.width))
    (rowsIn db region)).map fun row => row.measure.queryCount).sum_eq
  rw [List.map_append, List.sum_append, ← seriesIn, series] at split_
  constructor
  · intro once row member
    by_contra other
    have uncounted : (((rowsIn db region).filter fun row => !decide (row.bucketSecs = cfg.width)).map
        fun row => row.measure.queryCount).sum = 0 := by omega
    have none_ := List.sum_eq_zero_iff.mp uncounted _ (List.mem_map_of_mem
      (List.mem_filter.mpr ⟨member, by simpa using other⟩))
    exact absurd none_ (counted row (mem_rowsIn.mp member).1).ne'
  · intro sole
    rw [← seriesIn_of_sole sole]
    exact series

end Recombine

/-- The buckets of a lowercased indexer and deployment that start in a window. -/
def inWindow (crates : Crates) (since : Int) (indexer deployment : String) : Region := fun group =>
  decide (crates.lower group.1 = indexer) && decide (group.2.1 = deployment) && since ≤ group.2.2

/-- The judged observations in those buckets. -/
def judgedInWindow (crates : Crates) (cfg : QosRollupConfig) (since : Int)
    (indexer deployment : String) (db : Db) : List Evidence :=
  judgedWhere (fun owner deploymentId time => decide (crates.lower owner = indexer) &&
    decide (deploymentId = deployment) && since ≤ floorTo cfg.bucketMicros time) db

/-- The probes that `loadAllocHealth` holds against `serving_min_probes` for an indexer on a
deployment count each judged observation in the window once. -/
structure ServingCountsOnce (crates : Crates) (scoring : ScoringConfig) (now : Int)
    (cfg : QosRollupConfig) (db : Db) (indexer deployment : String) : Prop where
  once : ∀ serving ∈ servings crates (qosSince (now - daysMicros (longestWindow scoring)) db),
    serving.1 = (indexer, deployment) → probesOf serving.2 =
      (judgedInWindow crates cfg (now - daysMicros (longestWindow scoring)) indexer deployment db).length
  listed : judgedInWindow crates cfg (now - daysMicros (longestWindow scoring)) indexer deployment db ≠ [] →
    ∃ serving ∈ servings crates (qosSince (now - daysMicros (longestWindow scoring)) db),
      serving.1 = (indexer, deployment)

section Serving

variable {crates : Crates} {cfg : QosRollupConfig} {db : Db} {since : Int}
  {indexer deployment : String}

/-- The cells of the window hold what was answered in its whole buckets. -/
theorem locates_inWindow : Locates cfg (inWindow crates since indexer deployment)
    fun owner deploymentId time => decide (crates.lower owner = indexer) &&
      decide (deploymentId = deployment) && since ≤ floorTo cfg.bucketMicros time := fun _ _ _ => rfl

/-- A serving is the rows of its window, when there are any. -/
theorem mem_servings {rows : List QosRow} :
    ((indexer, deployment), rows) ∈ servings crates (qosSince since db) ↔
      rows ≠ [] ∧ rows = rowsIn db (inWindow crates since indexer deployment) := by
  have same : ((qosSince since db).filter fun row =>
      (crates.lower row.indexerAddress, row.deploymentId) = (indexer, deployment)) =
      rowsIn db (inWindow crates since indexer deployment) := by
    rw [qosSince, rowsIn, List.filter_filter]
    apply List.filter_congr
    intro row _
    have cell : inWindow crates since indexer deployment (cellOf row) =
        (decide (crates.lower row.indexerAddress = indexer) &&
          decide (row.deploymentId = deployment) && decide (since ≤ row.bucketStart)) := rfl
    rw [cell]
    simp [Bool.and_assoc]
  rw [servings, mem_groupBy, same]
  refine and_congr_left fun isRows => ?_
  rw [isRows, ← same, Ne, List.filter_eq_nil_iff]
  simp

/-- Over a series that is caught up, the probes compared for an indexer on a deployment count
each observation once exactly when its window holds no row of another width. -/
theorem servingCountsOnce_iff {scoring : ScoringConfig} {now : Int}
    (counted : ∀ row ∈ db.foghornQos, 0 < row.measure.queryCount)
    (caughtUp : CaughtUp cfg db
      (inWindow crates (now - daysMicros (longestWindow scoring)) indexer deployment)) :
    ServingCountsOnce crates scoring now cfg db indexer deployment ↔ SoleSeries cfg db
      (inWindow crates (now - daysMicros (longestWindow scoring)) indexer deployment) := by
  have iff_ := counted_once_iff_soleSeries counted caughtUp locates_inWindow
  rw [← iff_, ← judgedInWindow]
  constructor
  · rintro ⟨once, listed⟩
    by_cases stored : rowsIn db (inWindow crates (now - daysMicros (longestWindow scoring)) indexer
        deployment) = []
    · rw [stored]
      by_contra missed
      obtain ⟨⟨⟨_, _⟩, rows⟩, member, same⟩ := listed fun none_ => missed (by rw [none_]; rfl)
      cases same
      obtain ⟨nonempty, rfl⟩ := mem_servings.mp member
      exact nonempty stored
    · exact once _ (mem_servings.mpr ⟨stored, rfl⟩) rfl
  · intro equal
    constructor
    · rintro ⟨⟨_, _⟩, rows⟩ member same
      cases same
      obtain ⟨_, rfl⟩ := mem_servings.mp member
      exact equal
    · intro judged
      refine ⟨((indexer, deployment), _), mem_servings.mpr ⟨fun none_ => judged ?_, rfl⟩, rfl⟩
      rw [none_] at equal
      exact List.length_eq_zero_iff.mp equal.symm

end Serving

end Foghorn.Probe
