import Foghorn.Std.Aggregate
import Foghorn.Std.Grid
import Foghorn.Core.Judged

/-!
# The QoS rollup

`rollRange` recomputes the buckets of a time range, widened to whole buckets: it deletes
the rows the aggregate lacks and upserts the rest. `QosRow`s are spoken of through
`lookup`: `lookup_rollRange` says that a roll replaces exactly the keys of its range by
what the observations give for them (`wantedRow`), and that is all that later modules
need to know about it.
-/

namespace Foghorn.Probe

open Foghorn.Std Foghorn.Core

structure QosRollupConfig where
  bucketSecs : Nat
  lookbackSecs : Nat
  gatewayId : String
  chainId : String
  chainheadOffset : Nat

namespace QosRollupConfig

/-- The bucket width in microseconds. -/
def bucketMicros (cfg : QosRollupConfig) : Int := cfg.bucketSecs * microsPerSecond

/-- `bucket_secs as i32`: the series the rows belong to. -/
@[irreducible] def width (cfg : QosRollupConfig) : Int := (cfg.bucketSecs : Int).bmod (2 ^ 32)

end QosRollupConfig

/-- `window_range`, from its lower edge to its upper one, if it has one. -/
structure Window where
  lower : Int
  upper : Option Int

def Window.Holds (window : Window) (time : Int) : Prop :=
  window.lower ≤ time ∧ ∀ upper ∈ window.upper, time < upper

instance (window : Window) (time : Int) : Decidable (window.Holds time) :=
  inferInstanceAs (Decidable (_ ∧ _))

def windowRange (cfg : QosRollupConfig) (lower : Int) (upper : Option Int) : Window where
  lower := floorTo cfg.bucketMicros lower
  upper := upper.map fun upper => floorTo cfg.bucketMicros upper + cfg.bucketMicros

/-- `$8 IS NULL OR deployment_id = $8`. -/
def forDeployment (deployment : Option String) (deploymentId : String) : Prop :=
  ∀ wanted ∈ deployment, deploymentId = wanted

instance (deployment : Option String) (deploymentId : String) :
    Decidable (forDeployment deployment deploymentId) :=
  inferInstanceAs (Decidable (∀ wanted ∈ deployment, deploymentId = wanted))

/-- One row of `obs`. -/
structure ObsRow where
  indexerAddress : String
  deploymentId : String
  bucketStart : Int
  latencyMs : Option Int
  ok : Bool
  responseHash : Option String
  majorityHash : Option String
  clearMajority : Bool
  blocksBehind : Option ℚ
  nondeterministic : Bool

/-- What the rollup reads from an observation of a probe. -/
def obsRow (cfg : QosRollupConfig) (db : Db) (p : ProbeRow) (o : ObservationRow) : ObsRow where
  indexerAddress := db.identity o.indexerAddress
  deploymentId := p.deploymentId
  bucketStart := floorTo cfg.bucketMicros p.dispatchedAt
  latencyMs := o.latencyMs
  ok := o.errorClass.isNone && o.httpStatus = some 200
  responseHash := o.responseHash
  majorityHash := (db.divergence.lookup o.probeId).map DivergenceRow.largestByCountHash
  clearMajority :=
    ((db.divergence.lookup o.probeId).map fun d =>
      decide (db.responders o.probeId < d.largestByCountSize * 2)).getD false
  blocksBehind := o.metaBlockNumber.map fun number =>
    max 0 (p.blockNumber + (cfg.chainheadOffset : Int).bmod (2 ^ 64) - number)
  nondeterministic := db.flagged p.deploymentId

/-- The rows of `obs` among probes dispatched in a window, of one deployment or all. -/
def obsRows (cfg : QosRollupConfig) (db : Db) (window : Window) (deployment : Option String) :
    List ObsRow :=
  db.observation.rows.filterMap fun o =>
    (db.probe.lookup o.probeId).bind fun p =>
      if window.Holds p.dispatchedAt ∧ forDeployment deployment p.deploymentId ∧ db.isEvidence o then
        some (obsRow cfg db p o)
      else none

/-- A response to a probe with a clear majority, on a deployment that is not flagged. -/
def ObsRow.comparable (row : ObsRow) : Bool :=
  row.responseHash.isSome && row.clearMajority && !row.nondeterministic

/-- A comparable response that differs from the majority. -/
def ObsRow.divergent (row : ObsRow) : Bool :=
  row.comparable && row.responseHash ≠ row.majorityHash

/-- `stddev_samp`. -/
def standardDeviation (values : List ℚ) : Option SquareRoot := (sampleVariance values).map SquareRoot.mk

/-- `agg`: the measures over the rows of one group. -/
def measureOf (rows : List ObsRow) : QosMeasure where
  queryCount := rows.length
  numIndexer200Responses := rows.countP ObsRow.ok
  proportionIndexer200Responses := rows.countP ObsRow.ok / rows.length
  avgIndexerLatencyMs := average (latencies rows)
  maxIndexerLatencyMs := (latencies rows).max?
  stdevIndexerLatencyMs := standardDeviation (latencies rows)
  latencyP50Ms := (percentileCont (50 / 100) (latencies rows)).map roundHalfEven
  latencyP95Ms := (percentileCont (95 / 100) (latencies rows)).map roundHalfEven
  latencyP99Ms := (percentileCont (99 / 100) (latencies rows)).map roundHalfEven
  avgIndexerBlocksBehind := average (rows.filterMap ObsRow.blocksBehind)
  maxIndexerBlocksBehind := (rows.filterMap ObsRow.blocksBehind).max?
  comparableCount := rows.countP ObsRow.comparable
  divergentCount := rows.countP ObsRow.divergent
  correctnessRate :=
    if 0 < rows.countP ObsRow.comparable then
      some (1 - rows.countP ObsRow.divergent / rows.countP ObsRow.comparable)
    else none
where
  /-- The latencies of the successes, as doubles. -/
  latencies (rows : List ObsRow) : List ℚ :=
    (rows.filter ObsRow.ok).filterMap fun row => row.latencyMs.map fun latency => (latency : ℚ)

/-- `GROUP BY` indexer, deployment and bucket. -/
def ObsRow.group (row : ObsRow) : String × String × Int :=
  (row.indexerAddress, row.deploymentId, row.bucketStart)

/-- `urls`: one URL of an indexer, the greatest of those its allocations carry. -/
def urlOf (db : Db) (indexer : String) : Option String :=
  greatestText (db.allocationMap.rows.filterMap fun m =>
    if m.indexerAddress = some indexer ∧ m.indexerUrl ≠ some "" then m.indexerUrl else none)

/-- The row that a rollup inserts for one group. -/
def qosRow (cfg : QosRollupConfig) (now : Int) (db : Db)
    (group : (String × String × Int) × List ObsRow) : QosRow where
  indexerAddress := group.1.1
  deploymentId := group.1.2.1
  bucketStart := group.1.2.2
  bucketSecs := cfg.width
  indexerUrl := urlOf db group.1.1
  chainId := cfg.chainId
  gatewayId := cfg.gatewayId
  measure := measureOf group.2
  fees := QosFees.none
  computedAt := now

abbrev QosKey := String × String × Int × Int

abbrev QosTable := Table QosRow QosKey QosRow.key

/-- The rows a rollup over a window writes, one for each group. -/
def rolledRows (cfg : QosRollupConfig) (now : Int) (db : Db) (window : Window)
    (deployment : Option String) : QosTable where
  rows := (groupBy ObsRow.group (obsRows cfg db window deployment)).map (qosRow cfg now db)
  unique := by
    have keys : ((groupBy ObsRow.group (obsRows cfg db window deployment)).map
        (qosRow cfg now db)).map QosRow.key =
        ((groupBy ObsRow.group (obsRows cfg db window deployment)).map Prod.fst).map
          fun group => (group.1, group.2.1, group.2.2, cfg.width) := by
      simp [List.map_map, Function.comp_def, QosRow.key, qosRow]
    rw [keys]
    apply (groupBy_keys_nodup _ _).map
    rintro ⟨indexer, deploymentId, bucketStart⟩ ⟨indexer', deploymentId', bucketStart'⟩ same
    simpa using same

/-- `stale`: a row of this width in the range that the aggregate lacks. -/
def isStale (cfg : QosRollupConfig) (window : Window) (deployment : Option String)
    (rolled : QosTable) (row : QosRow) : Bool :=
  decide (row.bucketSecs = cfg.width) && decide (window.Holds row.bucketStart) &&
    decide (forDeployment deployment row.deploymentId) && !decide (rolled.holds row.key)

/-- The conflict update sets every column but the key and the fees. -/
def keepFees (row old : QosRow) : QosRow := { row with fees := old.fees }

private theorem key_keepFees (row old : QosRow) : (keepFees row old).key = row.key := rfl

/-- `roll_range`, with the number of rows it wrote. -/
def rollRange (cfg : QosRollupConfig) (now : Int) (lower : Int)
    (upper : Option Int) (deployment : Option String) (db : Db) : Db × Nat :=
  let window := windowRange cfg lower upper
  let rolled := rolledRows cfg now db window deployment
  let kept := db.foghornQos.deleteWhere (isStale cfg window deployment rolled)
  ({ db with foghornQos := kept.upsertAll rolled keepFees key_keepFees }, rolled.rows.length)

/-- The requests in the queue, `ORDER BY id`. -/
def listRequests (db : Db) : List RerollRow :=
  db.qosReroll.table.rows.mergeSort fun first second => first.id ≤ second.id

/-- Where the trailing window starts; the clock is read in whole seconds. -/
def QosRollupConfig.trailing (cfg : QosRollupConfig) (now : Int) : Int :=
  floorTo microsPerSecond now - cfg.lookbackSecs * microsPerSecond

/-- Roll what a request asks for. -/
def rollRequest (cfg : QosRollupConfig) (now : Int) (request : RerollRow) (db : Db) : Db × Nat :=
  rollRange cfg now request.fromTs (some request.toTs) request.deploymentId db

def deleteRequest (request : RerollRow) (db : Db) : Db :=
  { db with qosReroll := db.qosReroll.deleteWhere fun row => row.id = request.id }

/-- `rollup_once`: the trailing window, then every request, each removed once rolled. -/
def rollupOnce (cfg : QosRollupConfig) (now : Int) (db : Db) : Db × Nat :=
  let (db, rows) := rollRange cfg now (cfg.trailing now) none none db
  (listRequests db).foldl (fun (db, rows) request =>
    let (db, more) := rollRequest cfg now request db
    (deleteRequest request db, rows + more)) (db, rows)

abbrev RerollQueue := Serial RerollRow RerollRow.id

/-- Ask for the buckets of a deployment from the first time to the last, if there is one. -/
def RerollQueue.enqueue (now : Int) (deployment reason : String) (times : List Int)
    (queue : RerollQueue) : RerollQueue :=
  match times.min?, times.max? with
  | some first, some last =>
    queue.append (fun id => ⟨id, some deployment, first, last, reason, now⟩) (fun _ => rfl)
  | _, _ => queue

/-- `request_deployment_reroll`: every bucket the deployment has a probe in. -/
def requestDeploymentReroll (now : Int) (deployment reason : String) (db : Db) : Db :=
  { db with
    qosReroll := RerollQueue.enqueue now deployment reason
      ((db.probe.rows.filter fun p => p.deploymentId = deployment).map ProbeRow.dispatchedAt)
      db.qosReroll }

section Requests

variable {now : Int} {deployment reason : String} {times : List Int} {queue : RerollQueue} {db : Db}

namespace RerollQueue

/-- Asking adds at most one request, for that deployment, under the next id. -/
theorem mem_enqueue {request : RerollRow}
    (member : request ∈ queue.enqueue now deployment reason times) :
    request ∈ queue ∨ request.id = queue.next ∧ request.deploymentId = some deployment := by
  unfold enqueue at member
  split at member
  · rcases Serial.mem_append.mp member with old | rfl
    · exact Or.inl old
    · exact Or.inr ⟨rfl, rfl⟩
  · exact Or.inl member

/-- Enqueueing only adds to the queue. -/
theorem grows_enqueue : queue.Grows (queue.enqueue now deployment reason times) := by
  unfold enqueue
  split
  · exact Serial.grows_append
  · exact Serial.Grows.refl _

/-- A request over some times spans them all. -/
theorem exists_enqueue {time : Int} (some_ : time ∈ times) :
    ∃ request ∈ queue.enqueue now deployment reason times,
      request.id = queue.next ∧ request.deploymentId = some deployment ∧
        ∀ time ∈ times, request.fromTs ≤ time ∧ time ≤ request.toTs := by
  obtain ⟨first, isFirst⟩ := Option.isSome_iff_exists.mp (List.isSome_min?_of_mem some_)
  obtain ⟨last, isLast⟩ := Option.isSome_iff_exists.mp (List.isSome_max?_of_mem some_)
  have lower := (List.min?_eq_some_iff.mp isFirst).2
  have upper := (List.max?_eq_some_iff.mp isLast).2
  refine ⟨⟨queue.next, some deployment, first, last, reason, now⟩, ?_, rfl, rfl, ?_⟩
  · simp only [enqueue, isFirst, isLast]
    exact Serial.mem_append.mpr (Or.inr rfl)
  · intro time member
    exact ⟨lower time member, upper time member⟩

end RerollQueue

/-- A request for every bucket in which a deployment has a probe. -/
def RequestsAll (db : Db) (deployment : String) (request : RerollRow) : Prop :=
  request.deploymentId = some deployment ∧
    ∀ p ∈ db.probe, p.deploymentId = deployment →
      request.fromTs ≤ p.dispatchedAt ∧ p.dispatchedAt ≤ request.toTs

/-- A deployment with a probe gets a request that covers all its probes. -/
theorem exists_requestDeploymentReroll {p : ProbeRow} (probed : p ∈ db.probe)
    (ofDeployment : p.deploymentId = deployment) :
    ∃ request ∈ (requestDeploymentReroll now deployment reason db).qosReroll,
      request.id = db.qosReroll.next ∧ RequestsAll db deployment request := by
  have times : ∀ p ∈ db.probe, p.deploymentId = deployment → p.dispatchedAt ∈
      (db.probe.rows.filter fun p => p.deploymentId = deployment).map ProbeRow.dispatchedAt := by
    intro other member same
    exact List.mem_map_of_mem (List.mem_filter.mpr ⟨member, by simp [same]⟩)
  obtain ⟨request, member, id, named, spans⟩ :
      ∃ request ∈ (requestDeploymentReroll now deployment reason db).qosReroll, _ :=
    RerollQueue.exists_enqueue (times p probed ofDeployment)
  exact ⟨request, member, id, named, fun other member same => spans _ (times other member same)⟩

end Requests

section Spec

variable {cfg : QosRollupConfig}

/-- What the rollup would read over all time. -/
def allObsRows (cfg : QosRollupConfig) (db : Db) : List ObsRow :=
  db.observation.rows.filterMap fun o =>
    (db.probe.lookup o.probeId).bind fun p =>
      if db.isEvidence o then some (obsRow cfg db p o) else none

/-- The key of a group in the series of this width. -/
def QosKey.group (key : QosKey) : String × String × Int := (key.1, key.2.1, key.2.2.1)

/-- The observations of one group over all time. -/
def groupRows (cfg : QosRollupConfig) (db : Db) (group : String × String × Int) :
    List ObsRow :=
  (allObsRows cfg db).filter fun row => row.group = group

/-- The row that a rollup over all time writes under a key. -/
def wantedRow (cfg : QosRollupConfig) (now : Int) (db : Db) (key : QosKey) : Option QosRow :=
  match groupRows cfg db (QosKey.group key) with
  | [] => none
  | head :: tail => some (qosRow cfg now db (QosKey.group key, head :: tail))

/-- The keys a roll of a range rewrites. -/
def Covers (cfg : QosRollupConfig) (window : Window) (deployment : Option String)
    (key : QosKey) : Prop :=
  key.2.2.2 = cfg.width ∧ window.Holds key.2.2.1 ∧ forDeployment deployment key.2.1

instance (cfg : QosRollupConfig) (window : Window) (deployment : Option String) (key : QosKey) :
    Decidable (Covers cfg window deployment key) :=
  inferInstanceAs (Decidable (_ ∧ _ ∧ _))

/-- A range of whole buckets holds a time exactly when it holds the time's bucket. -/
theorem windowRange_holds_iff (positive : 0 < cfg.bucketSecs) (lower : Int)
    (upper : Option Int) (time : Int) :
    (windowRange cfg lower upper).Holds time ↔
      (windowRange cfg lower upper).Holds (floorTo cfg.bucketMicros time) := by
  have width : 0 < cfg.bucketMicros := by
    unfold QosRollupConfig.bucketMicros microsPerSecond
    omega
  unfold Window.Holds windowRange
  rw [floorTo_le_iff width]
  refine and_congr_right fun _ => ?_
  cases upper with
  | none => simp
  | some upper => simpa using lt_floorTo_add_iff width upper time

private theorem obsRows_windowRange (positive : 0 < cfg.bucketSecs) (db : Db) (lower : Int)
    (upper : Option Int) (deployment : Option String) :
    obsRows cfg db (windowRange cfg lower upper) deployment =
      (allObsRows cfg db).filter fun row =>
        (windowRange cfg lower upper).Holds row.bucketStart ∧
          forDeployment deployment row.deploymentId := by
  unfold obsRows allObsRows
  rw [List.filter_filterMap]
  apply List.filterMap_congr
  intro o _
  cases db.probe.lookup o.probeId with
  | none => rfl
  | some p =>
    have aligned := windowRange_holds_iff positive lower upper p.dispatchedAt
    by_cases evidence : db.isEvidence o
    · simp [evidence, aligned, obsRow, Option.filter]
    · simp [evidence]

/-- A roll writes one row for each group of its range that has observations. -/
theorem mem_rolledRows (positive : 0 < cfg.bucketSecs) {now : Int} {db : Db}
    {lower : Int} {upper : Option Int} {deployment : Option String} {row : QosRow} :
    row ∈ rolledRows cfg now db (windowRange cfg lower upper) deployment ↔
      ∃ group, (windowRange cfg lower upper).Holds group.2.2 ∧
        forDeployment deployment group.2.1 ∧ groupRows cfg db group ≠ [] ∧
        row = qosRow cfg now db (group, groupRows cfg db group) := by
  have restricted : ∀ group, (windowRange cfg lower upper).Holds group.2.2 ∧
      forDeployment deployment group.2.1 →
      (obsRows cfg db (windowRange cfg lower upper) deployment).filter
        (fun other => other.group = group) = groupRows cfg db group := by
    intro group inside
    rw [obsRows_windowRange positive, List.filter_filter, groupRows]
    apply List.filter_congr
    intro other _
    by_cases same : other.group = group
    · subst same
      simpa [ObsRow.group] using inside
    · simp [same]
  rw [← Table.mem_rows, rolledRows, List.mem_map]
  constructor
  · rintro ⟨⟨group, rows⟩, member, rfl⟩
    obtain ⟨⟨head, headIn, rfl⟩, rfl⟩ := mem_groupBy.mp member
    have inside := headIn
    rw [obsRows_windowRange positive, List.mem_filter, decide_eq_true_eq] at inside
    rw [restricted head.group inside.2]
    refine ⟨head.group, inside.2.1, inside.2.2, ?_, rfl⟩
    exact List.ne_nil_of_mem (List.mem_filter.mpr ⟨inside.1, by simp⟩)
  · rintro ⟨group, holds, chosen, nonempty, rfl⟩
    refine ⟨(group, groupRows cfg db group), mem_groupBy.mpr ⟨?_, ?_⟩, rfl⟩
    · obtain ⟨head, headIn⟩ := List.exists_mem_of_ne_nil _ nonempty
      rw [← restricted group ⟨holds, chosen⟩, List.mem_filter, decide_eq_true_eq] at headIn
      exact ⟨head, headIn⟩
    · exact (restricted group ⟨holds, chosen⟩).symm

private theorem key_qosRow (now : Int) (db : Db) (group : String × String × Int)
    (rows : List ObsRow) :
    (qosRow cfg now db (group, rows)).key = (group.1, group.2.1, group.2.2, cfg.width) := by
  simp [QosRow.key, qosRow]

/-- A row is wanted in a cell exactly when answers fall into it, and it is rolled up from them. -/
theorem wantedRow_eq_some_iff {now : Int} {db : Db} {key : QosKey} {row : QosRow} :
    wantedRow cfg now db key = some row ↔
      groupRows cfg db (QosKey.group key) ≠ [] ∧
        row = qosRow cfg now db (QosKey.group key, groupRows cfg db (QosKey.group key)) := by
  unfold wantedRow
  cases groupRows cfg db (QosKey.group key) with
  | nil => simp
  | cons head tail => simp [eq_comm]

/-- An observation row comes from a countable answer and its probe. -/
theorem mem_allObsRows {db : Db} {row : ObsRow} :
    row ∈ allObsRows cfg db ↔ ∃ o ∈ db.observation, ∃ p ∈ db.probe,
      p.id = o.probeId ∧ db.isEvidence o ∧ row = obsRow cfg db p o := by
  rw [allObsRows, List.mem_filterMap]
  constructor
  · rintro ⟨o, observed, found⟩
    obtain ⟨p, looked, kept⟩ := Option.bind_eq_some_iff.mp found
    obtain ⟨probed, same⟩ := Table.lookup_eq_some_iff.mp looked
    split at kept
    · exact ⟨o, observed, p, probed, same, ‹_›, (Option.some.inj kept).symm⟩
    · cases kept
  · rintro ⟨o, observed, p, probed, same, evidence, rfl⟩
    refine ⟨o, observed, ?_⟩
    rw [Table.lookup_eq_some_iff.mpr ⟨probed, same⟩]
    simp [evidence]

/-- Every wanted row has a probe in its deployment and bucket. -/
theorem exists_probe_of_wantedRow {now : Int} {db : Db} {key : QosKey} {row : QosRow}
    (wanted : wantedRow cfg now db key = some row) :
    ∃ p ∈ db.probe, p.deploymentId = key.2.1 ∧
      floorTo cfg.bucketMicros p.dispatchedAt = key.2.2.1 := by
  obtain ⟨nonempty, _⟩ := wantedRow_eq_some_iff.mp wanted
  obtain ⟨obs, member⟩ := List.exists_mem_of_ne_nil _ nonempty
  obtain ⟨listed, grouped⟩ := List.mem_filter.mp member
  obtain ⟨o, _, p, probed, _, _, rfl⟩ := mem_allObsRows.mp listed
  have group : (obsRow cfg db p o).group = QosKey.group key := of_decide_eq_true grouped
  exact ⟨p, probed, congrArg (fun g => g.2.1) group, congrArg (fun g => g.2.2) group⟩

/-- Inside its range a roll writes the wanted rows, and it writes nothing else. -/
theorem lookup_rolledRows (positive : 0 < cfg.bucketSecs) (now : Int) (db : Db)
    (lower : Int) (upper : Option Int) (deployment : Option String) (key : QosKey) :
    (rolledRows cfg now db (windowRange cfg lower upper) deployment).lookup key =
      if Covers cfg (windowRange cfg lower upper) deployment key then wantedRow cfg now db key
      else none := by
  apply Option.ext
  intro row
  rw [Table.lookup_eq_some_iff, mem_rolledRows positive]
  obtain ⟨indexer, deploymentId, bucket, secs⟩ := key
  constructor
  · rintro ⟨⟨group, holds, chosen, nonempty, rfl⟩, keyed⟩
    rw [key_qosRow] at keyed
    obtain ⟨rfl, rfl, rfl, rfl⟩ : group.1 = indexer ∧ group.2.1 = deploymentId ∧
        group.2.2 = bucket ∧ cfg.width = secs := by
      simpa using keyed
    rw [if_pos ⟨rfl, holds, chosen⟩, wantedRow_eq_some_iff]
    exact ⟨nonempty, rfl⟩
  · intro found
    split at found
    · rename_i covered
      obtain ⟨nonempty, rfl⟩ := wantedRow_eq_some_iff.mp found
      obtain ⟨rfl, holds, chosen⟩ := covered
      exact ⟨⟨_, holds, chosen, nonempty, rfl⟩, key_qosRow _ _ _ _⟩
    · cases found

/-- A roll replaces exactly the keys it covers by what the observations give for them, and
keeps the fees of those it replaces. -/
theorem lookup_rollRange (positive : 0 < cfg.bucketSecs) (now : Int) (db : Db)
    (lower : Int) (upper : Option Int) (deployment : Option String) (key : QosKey) :
    (rollRange cfg now lower upper deployment db).1.foghornQos.lookup key =
      if Covers cfg (windowRange cfg lower upper) deployment key then
        (wantedRow cfg now db key).map fun row =>
          ((db.foghornQos.lookup key).map (keepFees row)).getD row
      else db.foghornQos.lookup key := by
  have rolled := lookup_rolledRows positive now db lower upper deployment key
  simp only [rollRange, Table.lookup_upsertAll, Table.lookup_deleteWhere, rolled]
  cases stored : db.foghornQos.lookup key with
  | none => split <;> simp
  | some old =>
    obtain rfl := Table.key_of_lookup stored
    have covers_old : Covers cfg (windowRange cfg lower upper) deployment old.key ↔
        old.bucketSecs = cfg.width ∧ (windowRange cfg lower upper).Holds old.bucketStart ∧
          forDeployment deployment old.deploymentId := Iff.rfl
    by_cases covered : Covers cfg (windowRange cfg lower upper) deployment old.key
    · rw [if_pos covered] at rolled
      obtain ⟨sameWidth, holds, chosen⟩ := covers_old.mp covered
      cases wanted : wantedRow cfg now db old.key with
      | none =>
        -- Nothing to write under the key of the stored row: it is stale.
        have gone := Table.not_holds_iff_lookup.mpr (rolled.trans wanted)
        simp [isStale, sameWidth, holds, chosen, gone, covered, Option.filter]
      | some row =>
        have kept : (rolledRows cfg now db (windowRange cfg lower upper) deployment).holds old.key := by
          by_contra gone
          rw [Table.not_holds_iff_lookup, rolled, wanted] at gone
          cases gone
        simp [isStale, kept, covered, Option.filter]
    · have fresh : isStale cfg (windowRange cfg lower upper) deployment
          (rolledRows cfg now db (windowRange cfg lower upper) deployment) old = false := by
        rw [covers_old, not_and, not_and] at covered
        by_contra stale
        simp only [isStale, Bool.not_eq_false, Bool.and_eq_true, decide_eq_true_eq] at stale
        exact covered stale.1.1.1 stale.1.1.2 stale.1.2
      simp [covered, fresh, Option.filter]

/-- A bucket is at least a second long. -/
theorem bucketMicros_pos (positive : 0 < cfg.bucketSecs) : microsPerSecond ≤ cfg.bucketMicros := by
  unfold QosRollupConfig.bucketMicros microsPerSecond
  omega

/-- Nothing but the QoS table changes. -/
theorem rollRange_frame (now lower : Int) (upper : Option Int)
    (deployment : Option String) (db : Db) :
    (rollRange cfg now lower upper deployment db).1 =
      { db with foghornQos := (rollRange cfg now lower upper deployment db).1.foghornQos } := rfl

end Spec

end Foghorn.Probe
