import Mathlib.Data.List.AList
import Foghorn.Probe.Allocations

/-!
# Ingesting the peer oracle's daily points

The points of the last days are summed up for each indexer and deployment, every sum is
upserted, and what was not refreshed is deleted. An answer without the list ends the reading
like the end of the listing does, so what the points after it would have kept is deleted.
-/

namespace Foghorn.Probe

open Foghorn.Std Foghorn.Core

/-- `ALLOC_MIN_QUERIES` and `ALLOC_WINDOW_DAYS`. -/
def allocMinQueries : Int := 10

def allocWindowDays : Int := 3

/-- Pages of points that are asked for. -/
def pointPages : Nat := 60

/-- `allocation_qos`. -/
structure AllocationQos where
  indexerAddress : String
  deploymentId : String
  dayNumber : Int
  dayStart : Int
  successRate : ℚ
  blocksBehind : ℚ
  queryCount : Int
  updatedAt : Int

def AllocationQos.key (row : AllocationQos) : String × String :=
  (row.indexerAddress, row.deploymentId)

abbrev AllocationQosTable := Table AllocationQos (String × String) AllocationQos.key

structure AllocAgg where
  succWeighted : ℚ
  querySum : Int
  latestDay : Int
  latestDayStart : Int
  latestBb : ℚ

/-- `AllocAgg::default()`. -/
def AllocAgg.default : AllocAgg := ⟨0, 0, 0, 0, 0⟩

abbrev AllocAggs := AList fun _ : String × String => AllocAgg

/-- What is read of one point. -/
structure DataPoint where
  day : Int
  queryCount : Int
  successRate : ℚ
  blocksBehind : ℚ
  dayStart : Int

/-- An integer that is served as a text or as a number. -/
def i64Of (v : Json) : Option Int := (v.asStr.bind parseI64).or v.asI64

def queryCountOf (r : Json) : Int := ((r.index "query_count").asStr.bind parseI64).getD 0

section Ingest

variable (crates : Crates) (float : String → Option ℚ)

/-- The indexer and the deployment of a point, unless one is missing, and what it measured. -/
def dataPoint (r : Json) : Option ((String × String) × DataPoint) :=
  let indexer := crates.lowercase ((r.index "indexer_wallet").asStr.getD "")
  let dep := ((r.pointer ["subgraphDeployment", "id"]).bind Json.asStr).getD ""
  if indexer = "" ∨ dep = "" then none
  else some ((indexer, dep),
    { day := (i64Of (r.index "dayNumber")).getD 0
      queryCount := queryCountOf r
      successRate := ((r.index "proportion_indexer_200_responses").asStr.bind float).getD 1
      blocksBehind := ((r.index "avg_indexer_blocks_behind").asStr.bind float).getD 0
      dayStart := (i64Of (r.index "dayStart")).getD 0 })

def AllocAgg.add (e : AllocAgg) (point : DataPoint) : AllocAgg :=
  let sums := { e with
    succWeighted := e.succWeighted + point.successRate * point.queryCount
    querySum := e.querySum + point.queryCount }
  if e.latestDay ≤ point.day then
    { sums with
      latestDay := point.day
      latestDayStart := point.dayStart
      latestBb := point.blocksBehind }
  else sums

def countPoint (agg : AllocAggs) (r : Json) : AllocAggs :=
  match dataPoint crates float r with
  | none => agg
  | some (key, point) => agg.insert key (((agg.lookup key).getD .default).add point)

/-- What is made of an answer. -/
def pointsPage (response : Option Json) : Page Json :=
  match response with
  | none => .fails
  | some v =>
    match entityList "allocationDailyDataPoints" v with
    | none => .ends
    | some rows => if rows = [] then .ends else .rows rows

/-- When a pass starts by the clock of the process, and when the database upserts a row. -/
structure IngestClock where
  runStart : Int
  now : String × String → Int
  ordered : ∀ key, runStart ≤ now key

/-- The row of a sum, if it counts any query. -/
def AllocAgg.row (clock : IngestClock) (maxDay : Int) (key : String × String) (a : AllocAgg) :
    Option AllocationQos :=
  if a.querySum ≤ 0 then none
  else some
    { indexerAddress := key.1
      deploymentId := key.2
      -- `max_day as i32` keeps the low half.
      dayNumber := maxDay.bmod (2 ^ 32)
      dayStart := a.latestDayStart
      successRate := a.succWeighted / a.querySum
      blocksBehind := a.latestBb
      queryCount := a.querySum
      updatedAt := clock.now key }

private theorem key_of_row {clock : IngestClock} {maxDay : Int} {key : String × String}
    {a : AllocAgg}
    {row : AllocationQos} (stored : a.row clock maxDay key = some row) : row.key = key := by
  rw [AllocAgg.row] at stored
  split at stored <;> cases stored
  rfl

/-- An aggregate with queries is stored under its key. -/
theorem exists_row_of_pos (clock : IngestClock) (maxDay : Int) (key : String × String) {a : AllocAgg}
    (positive : 0 < a.querySum) :
    ∃ row, a.row clock maxDay key = some row ∧ row.key = key ∧ row.queryCount = a.querySum :=
  ⟨_, if_neg (not_le.mpr positive), rfl, rfl⟩

/-- A stored row has the queries of its aggregate, and some. -/
theorem queryCount_of_row {clock : IngestClock} {maxDay : Int} {key : String × String} {a : AllocAgg}
    {row : AllocationQos} (stored : a.row clock maxDay key = some row) :
    0 < a.querySum ∧ row.queryCount = a.querySum ∧ row.updatedAt = clock.now key := by
  rw [AllocAgg.row] at stored
  split at stored
  · cases stored
  · next positive =>
    cases stored
    exact ⟨not_le.mp positive, rfl, rfl⟩

/-- The rows of a pass, in the order in which the map is iterated. -/
def storedQos (order : IterOrder (Sigma fun _ : String × String => AllocAgg)) (clock : IngestClock)
    (maxDay : Int) (agg : AllocAggs) : AllocationQosTable where
  rows := (order.arrange agg.entries).filterMap fun entry => entry.2.row clock maxDay entry.1
  unique := by
    refine nodup_map_filterMap (fun entry row stored => key_of_row stored) ?_
    exact ((order.perm agg.entries).map Sigma.fst).nodup_iff.mpr agg.nodupKeys

/-- The newest day of the answer to the first query, 0 if it has none. -/
def maxDayOf (v : Json) : Int :=
  (((entityList "allocationDailyDataPoints" v).bind fun rows => rows[0]?).bind
    fun r => (r.get "dayNumber").bind i64Of).getD 0

/-- One pass: the table after it, and the number of rows stored unless it failed. `ask` is given
the first day of the window. -/
def ingestAllocationQos (order : IterOrder (Sigma fun _ : String × String => AllocAgg))
    (clock : IngestClock) (newest : Option Json) (ask : Int → Nat → String → Option Json)
    (before : AllocationQosTable) : AllocationQosTable × Option Nat :=
  match newest with
  | none => (before, none)
  | some v =>
    let maxDay := maxDayOf v
    if maxDay = 0 then (before, some 0)
    else
      let minDay := maxDay - (allocWindowDays - 1)
      let counted := readListing idOf "" (fun length => length < gatewayPageSize)
        (fun page last => pointsPage (ask minDay page last)) (countPoint crates float) pointPages ∅
      match counted with
      | none => (before, none)
      | some agg =>
        let stored := storedQos order clock maxDay agg
        ((before.upsertAll stored (fun new _ => new) fun _ _ => rfl).deleteWhere
          fun row => row.updatedAt < clock.runStart, some stored.rows.length)

/-- The points of the oracle: the answer to the query for the newest one, and what it lists from
a day on, each of some queries at least. -/
structure PointListing where
  newest : List Json
  since : Int → Listing idOf ""
  counted : ∀ minDay, ∀ r ∈ (since minDay).rows, allocMinQueries ≤ queryCountOf r

namespace PointListing

variable (listing : PointListing)

def maxDay : Int := maxDayOf (entityBody "allocationDailyDataPoints" listing.newest)

/-- The points of the window. -/
def window : Listing idOf "" := listing.since (listing.maxDay - (allocWindowDays - 1))

end PointListing

/-- The answer to the first query. -/
def newestAnswer (listing : PointListing) :
    Option (PageFault "allocationDailyDataPoints") → Option Json
  | none => some (entityBody "allocationDailyDataPoints" listing.newest)
  | some .unreachable => none
  | some (.body v _) => some v

/-- Any body without the list ends a pass. -/
def PageFault.pointsStop : PageFault "allocationDailyDataPoints" → Stop
  | unreachable => .fails
  | body _ _ => .ends

/-- A pass leaves the old rows, or exactly those of the complete listing. -/
def QosAllOrNothing (complete before after : AllocationQosTable) : Prop :=
  after = before ∨ ∀ row, row ∈ after ↔ row ∈ complete

variable {crates float} {order : IterOrder (Sigma fun _ : String × String => AllocAgg)}
  {clock : IngestClock} {maxDay : Int} {agg : AllocAggs}

/-- The stored rows are those of the aggregates that have one. -/
theorem mem_storedQos {row : AllocationQos} : row ∈ storedQos order clock maxDay agg ↔
    ∃ a, agg.lookup row.key = some a ∧ a.row clock maxDay row.key = some row := by
  rw [← Table.mem_rows, storedQos, List.mem_filterMap]
  simp only [IterOrder.mem_arrange]
  constructor
  · rintro ⟨⟨key, a⟩, member, stored⟩
    have named := key_of_row stored
    subst named
    exact ⟨a, AList.mem_lookup_iff.mpr member, stored⟩
  · rintro ⟨a, found, stored⟩
    exact ⟨⟨row.key, a⟩, AList.mem_lookup_iff.mp found, stored⟩

/-- The queries counted for a pair. -/
def AllocAggs.queries (agg : AllocAggs) (key : String × String) : Int :=
  ((agg.lookup key).map AllocAgg.querySum).getD 0

/-- A pair with queries has one row, which counts them. -/
theorem exists_mem_storedQos_iff {key : String × String} {count : Int} :
    (∃ row ∈ storedQos order clock maxDay agg, row.key = key ∧ row.queryCount = count) ↔
      0 < count ∧ agg.queries key = count := by
  constructor
  · rintro ⟨row, member, rfl, rfl⟩
    obtain ⟨a, found, stored⟩ := mem_storedQos.mp member
    obtain ⟨positive, count, -⟩ := queryCount_of_row stored
    rw [AllocAggs.queries, found]
    exact ⟨count ▸ positive, count.symm⟩
  · rintro ⟨positive, rfl⟩
    rw [AllocAggs.queries] at positive ⊢
    cases found : agg.lookup key with
    | none => simp [found] at positive
    | some a =>
      rw [found] at positive
      obtain ⟨row, stored, rfl, count⟩ := exists_row_of_pos clock maxDay key positive
      exact ⟨row, mem_storedQos.mpr ⟨a, found, stored⟩, rfl, count⟩

/-- Counting a point adds its queries to its own key alone. -/
theorem queries_countPoint {r : Json} {key : String × String} :
    AllocAggs.queries (countPoint crates float agg r) key =
      agg.queries key +
        if (dataPoint crates float r).map Prod.fst = some key then queryCountOf r else 0 := by
  rw [countPoint]
  cases read : dataPoint crates float r with
  | none => simp
  | some entry =>
    obtain ⟨named, point⟩ := entry
    have count : point.queryCount = queryCountOf r := by
      rw [dataPoint] at read
      split at read <;> cases read
      rfl
    by_cases same : key = named
    · subst same
      simp only [AllocAggs.queries, AList.lookup_insert, Option.map_some, Option.getD_some, if_pos]
      cases agg.lookup key <;> simp [AllocAgg.add, AllocAgg.default, count, apply_ite AllocAgg.querySum]
    · have other : named ≠ key := fun eq => same eq.symm
      simp [AllocAggs.queries, AList.lookup_insert_ne same, other]

/-- Points only add to the count of a pair, and one of the pair does. -/
theorem queries_le_foldl {rows : List Json} (counted : ∀ r ∈ rows, 0 < queryCountOf r)
    {key : String × String} : agg.queries key ≤
      AllocAggs.queries (rows.foldl (countPoint crates float) agg) key ∧
        ((∃ r ∈ rows, (dataPoint crates float r).map Prod.fst = some key) →
          agg.queries key < AllocAggs.queries (rows.foldl (countPoint crates float) agg) key) := by
  induction rows generalizing agg with
  | nil => simp
  | cons r rest ih =>
    obtain ⟨le, lt⟩ := @ih (countPoint crates float agg r)
      fun other member => counted other (List.mem_cons_of_mem _ member)
    have positive := counted r List.mem_cons_self
    rw [queries_countPoint] at le lt
    rw [List.foldl_cons]
    by_cases here : (dataPoint crates float r).map Prod.fst = some key
    · rw [if_pos here] at le lt
      exact ⟨by omega, fun _ => by omega⟩
    · rw [if_neg here, add_zero] at le lt
      refine ⟨le, fun ⟨other, member, names⟩ => lt ?_⟩
      rcases List.mem_cons.mp member with rfl | later
      · exact absurd names here
      · exact ⟨other, later, names⟩

private theorem foldl_countPoint_of_unread {rows : List Json}
    (unread : rows.filterMap (dataPoint crates float) = []) :
    rows.foldl (countPoint crates float) agg = agg := by
  induction rows with
  | nil => rfl
  | cons r rest ih =>
    cases read : dataPoint crates float r with
    | some entry => simp [read] at unread
    | none =>
      rw [List.filterMap_cons_none read] at unread
      rw [List.foldl_cons, countPoint, read, ih unread]

/-- The sums of some points are those of more exactly when the others are not read. -/
theorem storedQos_append_iff {rows rest : List Json}
    (counted : ∀ r ∈ rows ++ rest, 0 < queryCountOf r) :
    (∀ row, row ∈ storedQos order clock maxDay (rows.foldl (countPoint crates float) ∅) ↔
        row ∈ storedQos order clock maxDay ((rows ++ rest).foldl (countPoint crates float) ∅)) ↔
      rest.filterMap (dataPoint crates float) = [] := by
  rw [List.foldl_append]
  constructor
  · intro same
    refine List.filterMap_eq_nil_iff.mpr fun r member => ?_
    by_contra read
    obtain ⟨⟨key, point⟩, named⟩ := Option.ne_none_iff_exists'.mp read
    have before := (@queries_le_foldl crates float ∅ rows
      (fun other there => counted other (List.mem_append_left _ there)) key).1
    have more := (@queries_le_foldl crates float (rows.foldl (countPoint crates float) ∅) rest
      (fun other there => counted other (List.mem_append_right _ there)) key).2
        ⟨r, member, by rw [named]; rfl⟩
    have start : AllocAggs.queries ∅ key = 0 := rfl
    -- The pair of the point has a row, with a count that the points before do not reach.
    obtain ⟨row, stored, named, count⟩ := (@exists_mem_storedQos_iff order clock maxDay
      (rest.foldl (countPoint crates float) (rows.foldl (countPoint crates float) ∅)) key _).mpr
        ⟨by omega, rfl⟩
    have early := exists_mem_storedQos_iff.mp ⟨row, (same row).mpr stored, named, count⟩
    omega
  · intro unread row
    rw [foldl_countPoint_of_unread unread]

/-- A page of points is what the listing answers, or the fault it met. -/
theorem pointsPage_entityAnswer (listing : Listing idOf "")
    (fault : Nat → Option (PageFault "allocationDailyDataPoints")) (page : Nat) (last : String) :
    pointsPage (entityAnswer listing gatewayPageSize fault page last) =
      listing.answer gatewayPageSize (fun page => (fault page).map PageFault.pointsStop) page last := by
  rw [entityAnswer, Listing.answer]
  cases fault page with
  | none => simp [pointsPage]
  | some faulty =>
    cases faulty with
    | unreachable => rfl
    | body v unlisted => simp [pointsPage, PageFault.pointsStop, unlisted]

/-- What a pass writes over old rows is what it has summed up. -/
theorem mem_written {before : AllocationQosTable}
    (old : ∀ row ∈ before, row.updatedAt < clock.runStart) {row : AllocationQos} :
    row ∈ (before.upsertAll (storedQos order clock maxDay agg) (fun new _ => new)
        fun _ _ => rfl).deleteWhere (fun row => row.updatedAt < clock.runStart) ↔
      row ∈ storedQos order clock maxDay agg := by
  have fresh {row : AllocationQos} (stored : row ∈ storedQos order clock maxDay agg) :
      ¬ row.updatedAt < clock.runStart := by
    obtain ⟨a, -, made⟩ := mem_storedQos.mp stored
    rw [(queryCount_of_row made).2.2]
    exact not_lt.mpr (clock.ordered row.key)
  rw [Table.mem_deleteWhere, decide_eq_false_iff_not, Table.mem_iff_lookup, Table.lookup_upsertAll]
  cases found : (storedQos order clock maxDay agg).lookup row.key with
  | some new =>
    have written : (((before.lookup row.key).map fun _ => new).getD new) = new := by
      cases before.lookup row.key <;> rfl
    rw [Option.map_some, written, Option.some_or, ← found, ← Table.mem_iff_lookup]
    exact and_iff_left_of_imp fresh
  | none =>
    rw [Option.map_none, Option.none_or, ← Table.mem_iff_lookup]
    refine iff_of_false (fun kept => kept.2 (old row kept.1)) fun stored => ?_
    rw [Table.mem_iff_lookup.mp stored] at found
    cases found

/-- What a pass makes of what it has read. -/
theorem ingestAllocationQos_eq {listing : PointListing}
    {fault : Nat → Option (PageFault "allocationDailyDataPoints")} {before : AllocationQosTable}
    (known : listing.maxDay ≠ 0) :
    (ingestAllocationQos crates float order clock (newestAnswer listing none)
        (fun minDay => entityAnswer (listing.since minDay) gatewayPageSize fault) before).1 =
      match readListing idOf "" (fun length => length < gatewayPageSize)
        (listing.window.answer gatewayPageSize fun page => (fault page).map PageFault.pointsStop)
        (countPoint crates float) pointPages ∅ with
      | none => before
      | some agg =>
        (before.upsertAll (storedQos order clock listing.maxDay agg) (fun new _ => new)
          fun _ _ => rfl).deleteWhere fun row => row.updatedAt < clock.runStart := by
  have pages : (fun page last => pointsPage (entityAnswer (listing.since
      (maxDayOf (entityBody "allocationDailyDataPoints" listing.newest) - (allocWindowDays - 1)))
        gatewayPageSize fault page last)) =
      listing.window.answer gatewayPageSize fun page => (fault page).map PageFault.pointsStop := by
    funext page last
    exact pointsPage_entityAnswer listing.window fault page last
  rw [show newestAnswer listing none = some (entityBody _ listing.newest) from rfl,
    ingestAllocationQos]
  dsimp only
  rw [if_neg (show ¬ maxDayOf (entityBody _ listing.newest) = 0 from known), pages]
  split <;> rfl

private theorem short_pointsPage (length : Nat) (_ : length ≤ gatewayPageSize) :
    decide (length < gatewayPageSize) = true ↔ length < gatewayPageSize :=
  decide_eq_true_iff

/-- A pass that does not learn of a newest day leaves the table alone. -/
theorem ingestAllocationQos_unknown {listing : PointListing}
    {newestFault : Option (PageFault "allocationDailyDataPoints")}
    {ask : Int → Nat → String → Option Json} {before : AllocationQosTable}
    (unknown : newestFault = none → listing.maxDay = 0) :
    (ingestAllocationQos crates float order clock (newestAnswer listing newestFault) ask before).1 =
      before := by
  cases newestFault with
  | none =>
    rw [show newestAnswer listing none = some (entityBody _ listing.newest) from rfl,
      ingestAllocationQos]
    exact congrArg Prod.fst (if_pos (unknown rfl))
  | some faulty =>
    cases faulty with
    | unreachable => rfl
    | body v unlisted =>
      have day : maxDayOf v = 0 := by rw [maxDayOf, unlisted]; rfl
      rw [show newestAnswer listing (some (.body v unlisted)) = some v from rfl, ingestAllocationQos]
      exact congrArg Prod.fst (if_pos day)

/-- A table with one row from before the pass. -/
def oldTable (clock : IngestClock) : AllocationQosTable where
  rows := [⟨"", "", 0, 0, 0, 0, 0, clock.runStart - 1⟩]
  unique := List.nodup_singleton _

/-- Over a table with an old row, a pass that writes leaves its own rows or deletes that one. -/
theorem same_of_qosAllOrNothing {complete : AllocationQosTable}
    (sound : ∀ before : AllocationQosTable, (∀ row ∈ before, row.updatedAt < clock.runStart) →
      QosAllOrNothing complete before
        ((before.upsertAll (storedQos order clock maxDay agg) (fun new _ => new)
          fun _ _ => rfl).deleteWhere fun row => row.updatedAt < clock.runStart)) :
    ∀ row, row ∈ storedQos order clock maxDay agg ↔ row ∈ complete := by
  have old : ∀ row ∈ oldTable clock, row.updatedAt < clock.runStart := by
    intro row member
    rw [List.mem_singleton.mp (Table.mem_rows.mpr member)]
    exact Int.sub_one_lt_of_le le_rfl
  rcases sound (oldTable clock) old with same | same
  · have kept : (⟨"", "", 0, 0, 0, 0, 0, clock.runStart - 1⟩ : AllocationQos) ∈ oldTable clock :=
      Table.mem_rows.mp List.mem_cons_self
    have deleted := same ▸ kept
    rw [Table.mem_deleteWhere] at deleted
    exact absurd (old _ kept) (of_decide_eq_false deleted.2)
  · intro row
    rw [← mem_written old, same row]

/-- Over every table of older rows, the pass is all or nothing. -/
def PointPassSound (crates : Crates) (float : String → Option ℚ)
    (order : IterOrder (Sigma fun _ : String × String => AllocAgg)) (clock : IngestClock)
    (listing : PointListing) (newestFault : Option (PageFault "allocationDailyDataPoints"))
    (fault : Nat → Option (PageFault "allocationDailyDataPoints")) : Prop :=
  ∀ before : AllocationQosTable, (∀ row ∈ before, row.updatedAt < clock.runStart) →
    QosAllOrNothing (storedQos order clock listing.maxDay
        (listing.window.rows.foldl (countPoint crates float) ∅)) before
      (ingestAllocationQos crates float order clock (newestAnswer listing newestFault)
        (fun minDay => entityAnswer (listing.since minDay) gatewayPageSize fault) before).1

/-- Once the newest day is known, the pass is not cut short before a point that names an indexer
and a deployment. -/
def PointPassClean (crates : Crates) (float : String → Option ℚ) (listing : PointListing)
    (newestFault : Option (PageFault "allocationDailyDataPoints"))
    (fault : Nat → Option (PageFault "allocationDailyDataPoints")) : Prop :=
  newestFault = none → listing.maxDay ≠ 0 → ∀ pages,
    CutShort (fun page => (fault page).map PageFault.pointsStop) gatewayPageSize pointPages
        listing.window.rows.length pages →
      (listing.window.rows.drop (pages * gatewayPageSize)).filterMap (dataPoint crates float) = []

/-- A pass over points is all or nothing exactly when it does not delete what the points after
a break would have kept. -/
theorem pointPassSound_iff {listing : PointListing}
    {newestFault : Option (PageFault "allocationDailyDataPoints")}
    {fault : Nat → Option (PageFault "allocationDailyDataPoints")} :
    PointPassSound crates float order clock listing newestFault fault ↔
      PointPassClean crates float listing newestFault fault := by
  unfold PointPassSound PointPassClean
  by_cases known : newestFault = none ∧ listing.maxDay ≠ 0
  · obtain ⟨rfl, known⟩ := known
    simp only [ingestAllocationQos_eq known]
    by_cases cut : ∃ pages, CutShort (fun page => (fault page).map PageFault.pointsStop)
        gatewayPageSize pointPages listing.window.rows.length pages
    · obtain ⟨pages, cut⟩ := cut
      rw [readListing_cut short_pointsPage (by decide) cut]
      have counted : ∀ r ∈ listing.window.rows.take (pages * gatewayPageSize) ++
          listing.window.rows.drop (pages * gatewayPageSize), 0 < queryCountOf r := by
        rw [List.take_append_drop]
        intro r member
        have enough := listing.counted _ r member
        rw [allocMinQueries] at enough
        omega
      have unread := @storedQos_append_iff crates float order clock listing.maxDay _ _ counted
      rw [List.take_append_drop] at unread
      constructor
      · intro sound _ _ others again
        rw [again.unique cut]
        exact unread.mp (same_of_qosAllOrNothing sound)
      · intro complete before old
        refine .inr fun row => ?_
        rw [mem_written old]
        exact unread.mpr (complete trivial known pages cut) row
    · have uncut := not_exists.mp cut
      refine iff_of_true (fun before old => ?_) fun _ _ pages again => absurd again (uncut pages)
      rcases readListing_uncut short_pointsPage (by decide) uncut with read | read
      · exact .inl (by rw [read])
      · rw [read]
        exact .inr fun row => mem_written old
  · have unknown : newestFault = none → listing.maxDay = 0 := by
      intro answered
      by_contra day
      exact known ⟨answered, day⟩
    refine iff_of_true (fun before _ => .inl (ingestAllocationQos_unknown unknown)) ?_
    intro answered day
    exact absurd (unknown answered) day

end Ingest

section Replacements

/-- Each of the three replacements is all or nothing exactly in its clean passes. -/
theorem replacements_sound_iff (crates : Crates) (numeric float : String → Option ℚ) (now : Int)
    (committed : Bool) (order : IterOrder (Sigma fun _ : String × String => AllocAgg))
    (clock : IngestClock) (nest : NestListing crates) (ready : ReadyAnswer)
    (allocations : SqlReply nest.allocations) (endpoints : SqlReply nest.registrations)
    (gateway : GatewayListing crates) (gatewayFault : Nat → Option (PageFault "allocations"))
    (points : PointListing) (newestFault : Option (PageFault "allocationDailyDataPoints"))
    (pointFault : Nat → Option (PageFault "allocationDailyDataPoints")) :
    (GatewayPassSound crates numeric now gateway gatewayFault committed ↔
        GatewayPassClean crates numeric gateway gatewayFault committed) ∧
      (NestPassSound crates numeric now nest ready allocations endpoints committed ↔
        NestPassClean crates numeric nest ready allocations endpoints committed) ∧
      (PointPassSound crates float order clock points newestFault pointFault ↔
        PointPassClean crates float points newestFault pointFault) :=
  ⟨gatewayPassSound_iff, nestPassSound_iff, pointPassSound_iff⟩

/-- One point of one indexer on one deployment. -/
def onePoint : Json :=
  .object [("id", .string "1"), ("indexer_wallet", .string "0xindexer"),
    ("query_count", .string "10"), ("dayNumber", .string "5"),
    ("subgraphDeployment", .object [("id", .string "Qm")])]

def onePointListing : PointListing where
  newest := [onePoint]
  since _ := ⟨[onePoint], List.pairwise_singleton _ _, by decide⟩
  counted _ := by decide

/-- The answer of a gateway that refuses the query. -/
def refusedPage : PageFault "allocationDailyDataPoints" :=
  .body (.object [("errors", .array [])]) rfl

/-- The first page is refused, so every row is deleted. -/
theorem refused_page_refutes :
    ¬ ∀ (crates : Crates) (numeric float : String → Option ℚ) (now : Int) (committed : Bool)
      (order : IterOrder (Sigma fun _ : String × String => AllocAgg)) (clock : IngestClock)
      (nest : NestListing crates) (ready : ReadyAnswer) (allocations : SqlReply nest.allocations)
      (endpoints : SqlReply nest.registrations) (gateway : GatewayListing crates)
      (gatewayFault : Nat → Option (PageFault "allocations")) (points : PointListing)
      (newestFault : Option (PageFault "allocationDailyDataPoints"))
      (pointFault : Nat → Option (PageFault "allocationDailyDataPoints")),
        GatewayPassSound crates numeric now gateway gatewayFault committed ∧
          NestPassSound crates numeric now nest ready allocations endpoints committed ∧
          PointPassSound crates float order clock points newestFault pointFault := by
  intro claim
  obtain ⟨-, -, sound⟩ := claim (Crates.knowing [] []) (fun _ => none) (fun _ => none) 0 true
    .asInserted ⟨0, fun _ => 0, fun _ => le_rfl⟩ ⟨[], [], by simp⟩ .unreachable
    ⟨.unreachable, by simp [SqlAnswer.sql]⟩ ⟨.unreachable, by simp [SqlAnswer.sql]⟩
    ⟨⟨[], by simp, by simp⟩, by simp⟩ (fun _ => none) onePointListing none fun _ => some refusedPage
  have nothing := pointPassSound_iff.mp sound rfl (by decide) 0
    ⟨by decide, by simp, .inr ⟨by decide, rfl⟩⟩
  exact absurd nothing (by decide)

end Replacements

end Foghorn.Probe
