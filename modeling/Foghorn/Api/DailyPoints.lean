import Foghorn.Probe.Series

/-!
# The daily feed

`dailyPoints` rolls the buckets of the QoS table up into the oracle's daily entity. It reads
every row of an indexer, deployment and day, of whatever bucket width, and its filters choose
among whole days: a point it returns is `pointOf` all rows of its key (`mem_dailyPoints`).
-/

namespace Foghorn.Api

open Foghorn.Std Foghorn.Core Foghorn.Probe

/-- One rollup, with the oracle's field names. -/
structure DailyPoint where
  indexerAddress : String
  deploymentId : String
  dayNumber : Int
  dayStart : Int
  dayEnd : Int
  indexerUrl : Option String
  gatewayId : Option String
  chainId : Option String
  queryCount : Nat
  numIndexer200Responses : Nat
  proportionIndexer200Responses : Option ℚ
  avgIndexerLatencyMs : Option ℚ
  maxIndexerLatencyMs : Option ℚ
  avgIndexerBlocksBehind : Option ℚ
  maxIndexerBlocksBehind : Option ℚ
  comparableCount : Nat
  divergentCount : Nat
  correctnessRate : Option ℚ
  dataPointCount : Nat
  computedAt : Option Int
  id : String

/-- Sort orders the compat layer accepts. -/
inductive DailyOrder where
  | idAsc
  | idDesc
  | dayAsc
  | dayDesc
  | queryCountAsc
  | queryCountDesc

/-- Whether a point may come before another. -/
def DailyOrder.clause : DailyOrder → DailyPoint → DailyPoint → Bool
  | idAsc, first, second => !decide (second.id < first.id)
  | idDesc, first, second => !decide (first.id < second.id)
  | dayAsc, first, second =>
    first.dayNumber < second.dayNumber ||
      first.dayNumber = second.dayNumber && second.queryCount ≤ first.queryCount
  | dayDesc, first, second =>
    second.dayNumber < first.dayNumber ||
      first.dayNumber = second.dayNumber && second.queryCount ≤ first.queryCount
  | queryCountAsc, first, second =>
    first.queryCount < second.queryCount ||
      first.queryCount = second.queryCount && !decide (second.id < first.id)
  | queryCountDesc, first, second =>
    second.queryCount < first.queryCount ||
      first.queryCount = second.queryCount && !decide (second.id < first.id)

/-- Optional predicates for the daily rollup, with the defaults of the source. -/
structure DailyFilter where
  indexer : Option String := none
  deployment : Option String := none
  dayEq : Option Int := none
  dayGte : Option Int := none
  dayLte : Option Int := none
  queryCountGte : Option Int := none
  idGt : Option String := none
  order : DailyOrder := .dayDesc
  skip : Nat := 0
  limit : Nat := 1000

/-- Indexer, deployment and day number. -/
abbrev DayKey := String × String × Int

/-- `GROUP BY 1, 2, 3`. -/
def dayKey (row : QosRow) : DayKey :=
  (row.indexerAddress, row.deploymentId, row.bucketStart / dayMicros)

/-- One row of `g`, with its id. -/
def pointOf (key : DayKey) (rows : List QosRow) : DailyPoint where
  indexerAddress := key.1
  deploymentId := key.2.1
  dayNumber := key.2.2
  dayStart := key.2.2 * 86400
  dayEnd := key.2.2 * 86400 + 86399
  indexerUrl := greatestText (rows.filterMap QosRow.indexerUrl)
  gatewayId := greatestText (rows.map QosRow.gatewayId)
  chainId := greatestText (rows.map QosRow.chainId)
  queryCount := queryCount
  numIndexer200Responses := num200
  proportionIndexer200Responses := ratio (some num200) (some queryCount)
  avgIndexerLatencyMs := avgLatency rows
  maxIndexerLatencyMs := maxLatency rows
  avgIndexerBlocksBehind := average (rows.filterMap fun row => row.measure.avgIndexerBlocksBehind)
  maxIndexerBlocksBehind := (rows.filterMap fun row => row.measure.maxIndexerBlocksBehind).max?
  comparableCount := comparable
  divergentCount := divergent
  correctnessRate := if 0 < comparable then some (1 - divergent / comparable) else none
  dataPointCount := rows.length
  computedAt := (rows.map QosRow.computedAt).max?
  id := key.1 ++ "-" ++ key.2.1 ++ "-" ++ toString key.2.2
where
  queryCount : Nat := (rows.map fun row => row.measure.queryCount).sum
  num200 : Nat := (rows.map fun row => row.measure.numIndexer200Responses).sum
  comparable : Nat := (rows.map fun row => row.measure.comparableCount).sum
  divergent : Nat := (rows.map fun row => row.measure.divergentCount).sum
  /-- Weighted by successful probes. -/
  avgLatency (rows : List QosRow) : Option ℚ := ratio
    (total (rows.filterMap fun row => row.measure.avgIndexerLatencyMs.map fun mean =>
      mean * (row.measure.numIndexer200Responses : ℚ)))
    (total ((rows.filter fun row => row.measure.avgIndexerLatencyMs.isSome).map fun row =>
      (row.measure.numIndexer200Responses : ℚ)))
  maxLatency (rows : List QosRow) : Option ℚ :=
    (rows.filterMap fun row => row.measure.maxIndexerLatencyMs).max?

namespace DailyFilter

/-- The conditions on the columns that are grouped by. -/
def admits (f : DailyFilter) (key : DayKey) : Bool :=
  f.indexer.all (fun indexer => key.1 = indexer) &&
    f.deployment.all (fun deployment => key.2.1 = deployment) &&
    f.dayEq.all (fun day => key.2.2 = day) && f.dayGte.all (fun day => day ≤ key.2.2) &&
    f.dayLte.all fun day => key.2.2 ≤ day

/-- The conditions on the aggregates and the id. -/
def keeps (f : DailyFilter) (point : DailyPoint) : Bool :=
  f.queryCountGte.all (fun count => count ≤ (point.queryCount : Int)) &&
    f.idGt.all fun id => id < point.id

end DailyFilter

/-- `daily_points`; `arranged` is the order in which equal points come. -/
def dailyPoints (arranged : IterOrder DailyPoint) (db : Db) (f : DailyFilter) : List DailyPoint :=
  let rows := db.foghornQos.rows.filter fun row => f.admits (dayKey row)
  let points := ((groupBy dayKey rows).map fun group => pointOf group.1 group.2).filter f.keeps
  (((arranged.arrange points).mergeSort f.order.clause).drop f.skip).take f.limit

/-- The buckets of an indexer and deployment that start on a day. -/
def onDay (key : DayKey) : Region := fun group =>
  (group.1, group.2.1, group.2.2 / dayMicros) = key

/-- The judged observations of an indexer and deployment on a day. -/
def judgedOnDay (key : DayKey) (db : Db) : List Evidence :=
  judgedWhere (fun indexer deployment time => (indexer, deployment, time / dayMicros) = key) db

/-- Only the points of one indexer, deployment and day. -/
def DailyFilter.forKey (key : DayKey) : DailyFilter :=
  { indexer := some key.1, deployment := some key.2.1, dayEq := some key.2.2 }

/-- The indexer, deployment and day a point is about. -/
def DailyPoint.key (point : DailyPoint) : DayKey :=
  (point.indexerAddress, point.deploymentId, point.dayNumber)

/-- A point tells what some judged observations were. -/
structure DailyPoint.Tells (point : DailyPoint) (db : Db) (judged : List Evidence) : Prop where
  queryCount : point.queryCount = judged.length
  num200 : point.numIndexer200Responses = judged.countP succeeded
  comparable : point.comparableCount = judged.countP (isComparable db)
  divergent : point.divergentCount = judged.countP (isFault db)
  avgLatency : point.avgIndexerLatencyMs = average (successLatencies judged)
  maxLatency : point.maxIndexerLatencyMs = (successLatencies judged).max?
  correctness : point.correctnessRate =
    if judged.countP (isComparable db) = 0 then none
    else some (1 - (judged.countP (isFault db) : ℚ) / (judged.countP (isComparable db) : ℚ))

/-- Every point of the feed about a day tells what the day's judged observations were, and a
day that has some has a point. -/
structure DayCountsOnce (db : Db) (key : DayKey) : Prop where
  once : ∀ arranged f, ∀ point ∈ dailyPoints arranged db f, point.key = key →
    point.Tells db (judgedOnDay key db)
  listed : judgedOnDay key db ≠ [] → ∀ arranged,
    ∃ point ∈ dailyPoints arranged db (DailyFilter.forKey key), point.key = key

section Points

variable {arranged : IterOrder DailyPoint} {db : Db} {f : DailyFilter} {key : DayKey}

/-- The rows of a day are the table's rows under that key. -/
theorem rowsIn_onDay (key : DayKey) :
    rowsIn db (onDay key) = db.foghornQos.rows.filter fun row => dayKey row = key := rfl

/-- A point rolls up all rows of its key. -/
theorem mem_dailyPoints {point : DailyPoint} (member : point ∈ dailyPoints arranged db f) :
    rowsIn db (onDay point.key) ≠ [] ∧ point = pointOf point.key (rowsIn db (onDay point.key)) := by
  have sorted := List.mem_of_mem_drop (List.mem_of_mem_take member)
  rw [List.mem_mergeSort, IterOrder.mem_arrange, List.mem_filter, List.mem_map] at sorted
  obtain ⟨⟨⟨key, rows⟩, grouped, rfl⟩, _⟩ := sorted
  obtain ⟨⟨row, listed, rfl⟩, rfl⟩ := mem_groupBy.mp grouped
  obtain ⟨stored, admitted⟩ := List.mem_filter.mp listed
  -- The filters read the key alone, so they keep all of its rows or none.
  have whole : ((db.foghornQos.rows.filter fun row => f.admits (dayKey row)).filter fun other =>
      dayKey other = dayKey row) = rowsIn db (onDay (dayKey row)) := by
    rw [rowsIn_onDay, List.filter_filter]
    apply List.filter_congr
    intro other _
    by_cases same : dayKey other = dayKey row <;> simp [same, admitted]
  refine ⟨List.ne_nil_of_mem (mem_rowsIn.mpr ⟨stored, decide_eq_true rfl⟩), ?_⟩
  exact congrArg (pointOf (dayKey row)) whole

private theorem admits_forKey (key other : DayKey) :
    (DailyFilter.forKey key).admits other = decide (other = key) := by
  obtain ⟨indexer, deployment, day⟩ := key
  obtain ⟨indexer', deployment', day'⟩ := other
  have all : (DailyFilter.forKey (indexer, deployment, day)).admits (indexer', deployment', day') =
      (decide (indexer' = indexer) && decide (deployment' = deployment) && decide (day' = day) &&
        true && true) := rfl
  rw [all, Bool.eq_iff_iff]
  simp [and_assoc]

/-- Asking for one key that has rows returns its point. -/
theorem dailyPoints_forKey (stored : rowsIn db (onDay key) ≠ []) :
    dailyPoints arranged db (DailyFilter.forKey key) = [pointOf key (rowsIn db (onDay key))] := by
  have rows : (db.foghornQos.rows.filter fun row => (DailyFilter.forKey key).admits (dayKey row)) =
      rowsIn db (onDay key) := by
    rw [rowsIn_onDay]
    exact List.filter_congr fun row _ => admits_forKey key (dayKey row)
  have keys : (rowsIn db (onDay key)).map dayKey = List.replicate (rowsIn db (onDay key)).length key := by
    rw [List.eq_replicate_iff, List.length_map]
    refine ⟨rfl, fun found member => ?_⟩
    obtain ⟨row, listed, rfl⟩ := List.mem_map.mp member
    exact of_decide_eq_true (mem_rowsIn.mp listed).2
  have group : groupBy dayKey (rowsIn db (onDay key)) = [(key, rowsIn db (onDay key))] := by
    rw [groupBy, keys, List.replicate_dedup (List.length_eq_zero_iff.not.mpr stored),
      List.map_singleton, rowsIn_onDay, List.filter_filter]
    simp
  have one : (arranged.arrange [pointOf key (rowsIn db (onDay key))]) =
      [pointOf key (rowsIn db (onDay key))] := List.perm_singleton.mp (arranged.perm _)
  have kept : [pointOf key (rowsIn db (onDay key))].filter (DailyFilter.forKey key).keeps =
      [pointOf key (rowsIn db (onDay key))] := rfl
  rw [dailyPoints, rows, group, List.map_singleton, kept, one, List.mergeSort_singleton]
  rfl

end Points

section Recombine

variable {cfg : QosRollupConfig} {db : Db} {key : DayKey}

/-- A day is made of whole buckets when the width divides it. -/
theorem locates_onDay (positive : 0 < cfg.bucketSecs) (divides : cfg.bucketSecs ∣ 86400)
    (key : DayKey) : Locates cfg (onDay key)
      fun indexer deployment time => (indexer, deployment, time / dayMicros) = key := by
  intro indexer deployment time
  obtain ⟨buckets, day⟩ := divides
  have width : 0 < cfg.bucketMicros := by
    have := bucketMicros_pos positive
    unfold microsPerSecond at this
    omega
  have whole : dayMicros = cfg.bucketMicros * buckets := by
    rw [dayMicros, QosRollupConfig.bucketMicros, show (86400 : Int) = ((86400 : Nat) : Int) from rfl,
      day, Nat.cast_mul]
    ring
  have sameDay : floorTo cfg.bucketMicros time / dayMicros = time / dayMicros := by
    rw [whole, ← Int.ediv_ediv_of_nonneg width.le, ← Int.ediv_ediv_of_nonneg width.le, floorTo,
      Int.mul_ediv_cancel _ width.ne']
  simp only [onDay, sameDay]

private theorem comparable_obsRow (p : ProbeRow) (o : ObservationRow) :
    (obsRow cfg db p o).comparable = isComparable db (o, p) := by
  unfold ObsRow.comparable isComparable obsRow
  cases db.divergence.lookup o.probeId with
  | none => simp
  | some d =>
    simp only [Option.map_some, Option.getD_some, Bool.and_assoc]
    rw [Bool.and_comm (decide _)]

/-- The weighted mean of the rows of a series is the mean over their successes. -/
theorem avgLatency_pointOf (timed : ∀ o ∈ db.observation, o.latencyMs.isSome) {region : Region}
    (caughtUp : CaughtUp cfg db region) :
    pointOf.avgLatency (seriesIn cfg db region) =
      average (latencyParts cfg db region).flatten := by
  have weights : ∀ row ∈ seriesIn cfg db region, row.measure.numIndexer200Responses =
      (measureOf.latencies (groupRows cfg db (cellOf row))).length := by
    intro row member
    rw [length_latencies timed, measure_of_caughtUp caughtUp member]
    rfl
  have means : ∀ row ∈ seriesIn cfg db region, row.measure.avgIndexerLatencyMs =
      average (measureOf.latencies (groupRows cfg db (cellOf row))) := by
    intro row member
    rw [measure_of_caughtUp caughtUp member]
    rfl
  rw [← ratio_weighted_average, latencyParts, List.filterMap_map, List.filter_map, List.map_map,
    pointOf.avgLatency]
  congr 2
  · apply List.filterMap_congr
    intro row member
    rw [means row member, weights row member]
    rfl
  · have present : ((seriesIn cfg db region).filter fun row =>
        row.measure.avgIndexerLatencyMs.isSome) = (seriesIn cfg db region).filter
          ((fun part => (average part).isSome) ∘ fun row =>
            measureOf.latencies (groupRows cfg db (cellOf row))) := by
      apply List.filter_congr
      intro row member
      rw [means row member]
      rfl
    rw [present]
    apply List.map_congr_left
    intro row member
    rw [weights row (List.mem_filter.mp member).1]
    rfl

/-- Over a caught-up region the greatest latency is that of its answers. -/
theorem maxLatency_pointOf {region : Region} (caughtUp : CaughtUp cfg db region) :
    pointOf.maxLatency (seriesIn cfg db region) =
      (latencyParts cfg db region).flatten.max? := by
  rw [← max?_filterMap_max?, latencyParts, List.filterMap_map, pointOf.maxLatency]
  congr 1
  apply List.filterMap_congr
  intro row member
  rw [measure_of_caughtUp caughtUp member]
  rfl

/-- A point over one series that is caught up tells what the day's judged observations were. -/
theorem pointOf_tells (timed : ∀ o ∈ db.observation, o.latencyMs.isSome)
    (positive : 0 < cfg.bucketSecs) (divides : cfg.bucketSecs ∣ 86400)
    (caughtUp : CaughtUp cfg db (onDay key)) :
    (pointOf key (seriesIn cfg db (onDay key))).Tells db (judgedOnDay key db) := by
  have locates := locates_onDay positive divides key
  have counts := sum_seriesIn caughtUp locates
  have latencies := latencyParts_perm caughtUp locates
  have comparable : (pointOf key (seriesIn cfg db (onDay key))).comparableCount =
      (judgedOnDay key db).countP (isComparable db) :=
    counts QosMeasure.comparableCount ObsRow.comparable (isComparable db) (fun _ => rfl)
      fun o p => comparable_obsRow p o
  have divergent : (pointOf key (seriesIn cfg db (onDay key))).divergentCount =
      (judgedOnDay key db).countP (isFault db) :=
    counts QosMeasure.divergentCount ObsRow.divergent (isFault db) (fun _ => rfl)
      fun o p => divergent_obsRow p o
  refine ⟨?_, ?_, comparable, divergent, ?_, ?_, ?_⟩
  · rw [← List.countP_true]
    exact counts QosMeasure.queryCount (fun _ => true) (fun _ => true)
      (fun rows => by simp [measureOf]) fun _ _ => rfl
  · exact counts QosMeasure.numIndexer200Responses ObsRow.ok succeeded (fun _ => rfl) fun _ _ => rfl
  · rw [judgedOnDay, ← average_perm latencies]
    exact avgLatency_pointOf timed caughtUp
  · rw [judgedOnDay, ← max?_eq_of_perm latencies]
    exact maxLatency_pointOf caughtUp
  · rw [← comparable, ← divergent]
    by_cases none_ : (pointOf key (seriesIn cfg db (onDay key))).comparableCount = 0
    · rw [if_pos none_]
      exact if_neg (Nat.not_lt.mpr none_.le)
    · rw [if_neg none_]
      exact if_pos (Nat.pos_of_ne_zero none_)

/-- Over a series that is caught up on a day, the feed tells what the day's judged observations
were exactly when the day holds no row of another width. -/
theorem dayCountsOnce_iff (counted : ∀ row ∈ db.foghornQos, 0 < row.measure.queryCount)
    (timed : ∀ o ∈ db.observation, o.latencyMs.isSome) (positive : 0 < cfg.bucketSecs)
    (divides : cfg.bucketSecs ∣ 86400) (caughtUp : CaughtUp cfg db (onDay key)) :
    DayCountsOnce db key ↔ SoleSeries cfg db (onDay key) := by
  have locates := locates_onDay positive divides key
  have iff_ := counted_once_iff_soleSeries counted caughtUp locates
  rw [← judgedOnDay] at iff_
  constructor
  · intro tells
    by_cases stored : rowsIn db (onDay key) = []
    · intro row member
      rw [stored] at member
      cases member
    · have returned : dailyPoints IterOrder.asInserted db (DailyFilter.forKey key) = _ :=
        dailyPoints_forKey stored
      have point : (pointOf key (rowsIn db (onDay key))).Tells db (judgedOnDay key db) :=
        tells.once IterOrder.asInserted (DailyFilter.forKey key) _
          (returned ▸ List.mem_singleton_self _) rfl
      exact iff_.mp point.queryCount
  · intro sole
    have rows := seriesIn_of_sole sole
    constructor
    · rintro arranged f point member rfl
      rw [(mem_dailyPoints member).2, ← rows]
      exact pointOf_tells timed positive divides caughtUp
    · intro judged arranged
      have stored : rowsIn db (onDay key) ≠ [] := by
        intro none_
        have equal := iff_.mpr sole
        rw [none_] at equal
        exact judged (List.length_eq_zero_iff.mp equal.symm)
      exact ⟨_, dailyPoints_forKey stored ▸ List.mem_singleton_self _, rfl⟩

end Recombine

private theorem width_congr {other cfg : QosRollupConfig}
    (same : other.bucketSecs = cfg.bucketSecs) :
    other.width = cfg.width := by
  unfold QosRollupConfig.width
  rw [same]

/-- In every history a caught-up day, and a caught-up scoring window, count each judged
observation once exactly when they hold no row of another width, as they never do under
settings of one width. -/
theorem counted_once_iff {allowed : QosRollupConfig → Prop}
    (dividing : ∀ cfg, allowed cfg → cfg.bucketSecs ∣ 86400) {s : System}
    (history : History allowed s) {cfg : QosRollupConfig} (inForce : allowed cfg) :
    (∀ key, CaughtUp cfg s.db (onDay key) →
      (DayCountsOnce s.db key ↔ SoleSeries cfg s.db (onDay key))) ∧
    (∀ crates scoring now indexer deployment,
      CaughtUp cfg s.db
        (inWindow crates (now - daysMicros (longestWindow scoring)) indexer deployment) →
      (ServingCountsOnce crates scoring now cfg s.db indexer deployment ↔ SoleSeries cfg s.db
        (inWindow crates (now - daysMicros (longestWindow scoring)) indexer deployment))) ∧
    ((∀ other, allowed other → other.bucketSecs = cfg.bucketSecs) →
      ∀ region, SoleSeries cfg s.db region) := by
  have positive : ∀ cfg, allowed cfg → 0 < cfg.bucketSecs := fun cfg set =>
    Nat.pos_of_dvd_of_pos (dividing cfg set) (Nat.succ_pos _)
  have well := history.wellRolled positive
  refine ⟨fun key caughtUp => ?_, fun crates scoring now indexer deployment caughtUp => ?_,
    fun oneWidth region row member => ?_⟩
  · exact dayCountsOnce_iff well.counted well.timed (positive cfg inForce) (dividing cfg inForce)
      caughtUp
  · exact servingCountsOnce_iff well.counted caughtUp
  · obtain ⟨other, set, series⟩ := well.rolled row (mem_rowsIn.mp member).1
    exact series.trans (width_congr (oneWidth other set))

section Samples

/-- A paid answer as the executor measured it. -/
def paidAnswer : RawObservation where
  indexerAddress := "0xindexer"
  responseHash := some "a"
  rawResponse := none
  latencyMs := 40
  metaBlockNumber := none
  metaBlockHash := none
  httpStatus := some 200
  errorClass := none
  stakeWeight := .exact 1
  requestCid := none
  responseCid := none
  attestation := none
  dispatchMode := .paid

def tenMinutes : QosRollupConfig := { fiveMinutes with bucketSecs := 600 }

/-- Five minutes, then ten. -/
def eitherWidth (cfg : QosRollupConfig) : Prop := cfg = fiveMinutes ∨ cfg = tenMinutes

def epochDay : DayKey := ("0xindexer", "Qm", 0)

/-- The one answer to a probe dispatched at the epoch. -/
def answeredDb : Db :=
  { Db.empty with
    probe := Table.empty.insertNew onlyProbe
    observation := Table.empty.insertNew (paidAnswer.toRow 1) }

def rollTrailing (cfg : QosRollupConfig) (db : Db) : Db :=
  (rollRange cfg 1000000000 (cfg.trailing 1000000000) none none db).1

private theorem history_answered (allowed : QosRollupConfig → Prop) (set : allowed fiveMinutes) :
    History allowed ⟨1000000000, answeredDb, [], .idle⟩ :=
  ((History.start 1000000000).event set (by rintro _ ⟨⟩)
    (.store (.insertProbe onlyProbe))).event set
      (fun _ stored => ⟨1, paidAnswer, (StoreStatement.insertObservation.inj (Event.store.inj stored)).symm⟩)
      (.store (.insertObservation (paidAnswer.toRow 1)))

/-- A pass that rolls the trailing window and ends there. -/
theorem history_rollTrailing {allowed : QosRollupConfig → Prop} {cfg : QosRollupConfig} {db : Db}
    (history : History allowed ⟨1000000000, db, [], .idle⟩) (set : allowed cfg)
    (positive : 0 < cfg.bucketSecs) :
    History allowed ⟨1000000000, rollTrailing cfg db, [], .idle⟩ :=
  ((history.event set (by rintro _ ⟨⟩) (.beginPass rfl)).event set
    (by rintro _ ⟨⟩) (.rollWindow _ rfl positive)).event set
      (by rintro _ ⟨⟩) .failPass

private theorem onDay_inside {cfg : QosRollupConfig}
    (early : (windowRange cfg (cfg.trailing 1000000000)
    none).lower ≤ 0) : ∀ group, onDay epochDay group →
      (windowRange cfg (cfg.trailing 1000000000) none).Holds group.2.2 ∧
        forDeployment none group.2.1 := by
  intro group chosen
  have day : group.2.2 / dayMicros = 0 := congrArg (fun key : DayKey => key.2.2) (of_decide_eq_true chosen)
  have start := Int.ediv_mul_le group.2.2 (show dayMicros ≠ 0 by decide)
  rw [day, Int.zero_mul] at start
  exact ⟨⟨early.trans start, fun _ none_ => nomatch none_⟩, fun _ none_ => nomatch none_⟩

private theorem caughtUp_five :
    CaughtUp fiveMinutes (rollTrailing fiveMinutes answeredDb) (onDay epochDay) :=
  caughtUp_rollRange (by decide) _ _ _ _ (onDay_inside (by decide))

/-- One width tells the day as it was. -/
theorem one_width_countsOnce : DayCountsOnce (rollTrailing fiveMinutes answeredDb) epochDay := by
  have history := history_rollTrailing (history_answered (· = fiveMinutes) rfl) rfl (by decide)
  have dividing : ∀ cfg, cfg = fiveMinutes → cfg.bucketSecs ∣ 86400 := by
    rintro cfg rfl
    decide
  obtain ⟨days, _, sole⟩ := counted_once_iff dividing history rfl
  exact (days epochDay caughtUp_five).mpr (sole (fun _ set => set ▸ rfl) _)

def rolledTwice : Db := rollTrailing tenMinutes (rollTrailing fiveMinutes answeredDb)

/-- Both series are caught up on the day, and the feed counts its one observation twice. -/
theorem second_width_refutes :
    ¬ ∀ (allowed : QosRollupConfig → Prop) (_ : ∀ cfg, allowed cfg → cfg.bucketSecs ∣ 86400)
      (s : System) (_ : History allowed s) (key : DayKey)
      (_ : ∀ cfg, allowed cfg → CaughtUp cfg s.db (onDay key)), DayCountsOnce s.db key := by
  intro always
  have history : History eitherWidth ⟨1000000000, rolledTwice, [], .idle⟩ :=
    history_rollTrailing (history_rollTrailing (history_answered eitherWidth (Or.inl rfl))
      (Or.inl rfl) (by decide)) (Or.inr rfl) (by decide)
  have caughtUp : ∀ cfg, eitherWidth cfg → CaughtUp cfg rolledTwice (onDay epochDay) := by
    rintro cfg (rfl | rfl)
    · exact caughtUp_five.rollRange (by decide) (by decide +kernel) _ _ _ _
    · exact caughtUp_rollRange (by decide) _ _ _ _ (onDay_inside (by decide))
  have dividing : ∀ cfg, eitherWidth cfg → cfg.bucketSecs ∣ 86400 := by
    rintro cfg (rfl | rfl) <;> decide
  have tells := always eitherWidth dividing _ history epochDay caughtUp
  have stored : rowsIn rolledTwice (onDay epochDay) ≠ [] := by decide +kernel
  have point := tells.once IterOrder.asInserted (DailyFilter.forKey epochDay) _
    (dailyPoints_forKey stored ▸ List.mem_singleton_self _) rfl
  have counts := point.queryCount
  revert counts
  decide +kernel

end Samples

end Foghorn.Api
