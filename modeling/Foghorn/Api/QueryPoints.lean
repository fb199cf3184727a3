import Mathlib.Data.String.Basic
import Foghorn.Api.DailyPages
import Foghorn.Core.Decimal
import Foghorn.Std.Lines

/-!
# The per-deployment daily entity

`queryDailyDataPoints` renders rows of the daily rollup, one for each indexer, as entities that
carry only the deployment and the day.
-/

namespace Foghorn.Api

open Foghorn.Std Foghorn.Core Foghorn.Probe

/-- Which feed a query is asking for. -/
inductive Feed where
  | measured
  | foreign

def Feed.fromGatewayId : Option String → Feed
  | none => .measured
  | some g => if g.toLower = "lodestar" ∨ g.toLower = "foghorn" then .measured else .foreign

/-- `points_for`. -/
def pointsFor (arranged : IterOrder DailyPoint) (db : Db) (feed : Feed) (f : DailyFilter) :
    List DailyPoint :=
  match feed with
  | .measured => dailyPoints arranged db f
  | .foreign => []

/-- The `where` arguments that consumers send. -/
structure AllocationDailyDataPointFilter where
  dayNumber : Option Int := none
  dayNumberGte : Option Int := none
  dayNumberLte : Option Int := none
  queryCountGte : Option String := none
  idGt : Option String := none
  indexerWallet : Option String := none
  subgraphDeploymentIpfsHash : Option String := none
  gatewayId : Option String := none

namespace AllocationDailyDataPointFilter

def feed (self : AllocationDailyDataPointFilter) : Feed := Feed.fromGatewayId self.gatewayId

/-- A number that does not parse is ignored. -/
def apply (crates : Crates) (self : AllocationDailyDataPointFilter) (f : DailyFilter) :
    DailyFilter :=
  { f with
    dayEq := self.dayNumber
    dayGte := self.dayNumberGte
    dayLte := self.dayNumberLte
    queryCountGte := self.queryCountGte.bind parseI64
    idGt := self.idGt
    indexer := (self.indexerWallet.map crates.lowercase).or f.indexer
    deployment := self.subgraphDeploymentIpfsHash.or f.deployment }

end AllocationDailyDataPointFilter

inductive AllocationOrderBy where
  | id
  | dayNumber
  | dayStart
  | dayEnd
  | queryCount
  | proportionIndexer200Responses
  | avgIndexerLatencyMs
  | avgIndexerBlocksBehind

inductive OrderDirection where
  | asc
  | desc
deriving DecidableEq

/-- `order_of`. -/
def orderOf (orderBy : Option AllocationOrderBy) (dir : Option OrderDirection) : DailyOrder :=
  let desc := dir = some .desc
  match orderBy with
  | some .id => if desc then .idDesc else .idAsc
  | some .queryCount => if desc then .queryCountDesc else .queryCountAsc
  | _ => if desc then .dayDesc else .dayAsc

/-- `first` and `skip`, clamped. -/
def DailyFilter.firstSkip (f : DailyFilter) (first skip : Option Int) : DailyFilter :=
  { f with
    limit := (max 1 (min 1000 (first.getD 100))).toNat
    skip := (max 0 (skip.getD 0)).toNat }

/-- Deployment and day number. -/
abbrev DeploymentDay := String × Int

/-- A row of the rollup, seen as the entity of a deployment. -/
structure QueryDailyDataPoint where
  row : DailyPoint

/-- A number that null stands for zero of. -/
def big (v : Option ℚ) : ℚ := v.getD 0

/-- The id of a deployment and day. -/
def dayId (day : DeploymentDay) : String := day.1 ++ "-" ++ toString day.2

namespace QueryDailyDataPoint

def id (self : QueryDailyDataPoint) : String := dayId (self.row.deploymentId, self.row.dayNumber)
def dayNumber (self : QueryDailyDataPoint) : Int := self.row.dayNumber
def dayStart (self : QueryDailyDataPoint) : String := toString self.row.dayStart
def dayEnd (self : QueryDailyDataPoint) : String := toString self.row.dayEnd
def queryCount (self : QueryDailyDataPoint) : ℚ := big (some (self.row.queryCount : ℚ))
def subgraphDeploymentIpfsHash (self : QueryDailyDataPoint) : String := self.row.deploymentId
def chainId (self : QueryDailyDataPoint) : Option String := self.row.chainId
def gatewayId (self : QueryDailyDataPoint) : Option String := self.row.gatewayId
def avgGatewayLatencyMs (_ : QueryDailyDataPoint) : Option String := none
def gatewayQuerySuccessRate (_ : QueryDailyDataPoint) : Option String := none
def userAttributedErrorRate (_ : QueryDailyDataPoint) : Option String := none

/-- The deployment and day an entity is about. -/
def day (self : QueryDailyDataPoint) : DeploymentDay :=
  (self.subgraphDeploymentIpfsHash, self.dayNumber)

end QueryDailyDataPoint

section Request

variable (crates : Crates) (wh : Option AllocationDailyDataPointFilter)

/-- The feed that a request asks for. -/
def feedOf : Feed := (wh.map AllocationDailyDataPointFilter.feed).getD .measured

/-- The filter of a request, before its order and page. -/
def filterOf : DailyFilter := wh.elim {} fun w => w.apply crates {}

/-- `QueryRoot.queryDailyDataPoints`. -/
def queryDailyDataPoints (arranged : IterOrder DailyPoint) (db : Db) (first skip : Option Int)
    (orderBy : Option AllocationOrderBy) (dir : Option OrderDirection) :
    List QueryDailyDataPoint :=
  let f := { filterOf crates wh with order := orderOf orderBy dir }
  (pointsFor arranged db (feedOf wh) (f.firstSkip first skip)).map .mk

/-- The entities of all pages, one page after the other. -/
def allEntities (arranged : IterOrder DailyPoint) (db : Db) (order : DailyOrder) :
    List QueryDailyDataPoint :=
  match feedOf wh with
  | .measured => (order.sort arranged (matching db (filterOf crates wh))).map .mk
  | .foreign => []

/-- What is returned is a page of all entities. -/
theorem queryDailyDataPoints_eq (arranged : IterOrder DailyPoint) (db : Db)
    (first skip : Option Int) (orderBy : Option AllocationOrderBy) (dir : Option OrderDirection) :
    queryDailyDataPoints crates wh arranged db first skip orderBy dir =
      ((allEntities crates wh arranged db (orderOf orderBy dir)).drop
        (DailyFilter.firstSkip {} first skip).skip).take
          (DailyFilter.firstSkip {} first skip).limit := by
  unfold queryDailyDataPoints allEntities
  cases feedOf wh with
  | measured =>
    simp only [pointsFor, ← List.map_drop, ← List.map_take]
    rfl
  | foreign => simp [pointsFor]

end Request

section Purpose

/-- What was measured of a deployment on a day, whatever the indexer. -/
def measuredOn (db : Db) (day : DeploymentDay) : List QosRow :=
  db.foghornQos.rows.filter fun row => (dayKey row).2 = day

def queriesOf (rows : List QosRow) : Nat := (rows.map fun row => row.measure.queryCount).sum

/-- The conditions of a filter on the deployment and the day. -/
def DailyFilter.admitsDay (f : DailyFilter) (day : DeploymentDay) : Bool :=
  f.deployment.all (fun deployment => day.1 = deployment) &&
    f.dayEq.all (fun wanted => day.2 = wanted) && f.dayGte.all (fun first => first ≤ day.2) &&
    f.dayLte.all fun last => day.2 ≤ last

/-- A request asks for what was measured on a day, under an id. -/
structure WantsUnder (crates : Crates) (wh : Option AllocationDailyDataPointFilter)
    (day : DeploymentDay) (rows : List QosRow) (id : String) : Prop where
  feed : feedOf wh = .measured
  measured : rows ≠ []
  admitted : (filterOf crates wh).admitsDay day
  enough : (filterOf crates wh).queryCountGte.all fun count => count ≤ (queriesOf rows : Int)
  after : (filterOf crates wh).idGt.all fun id' => id' < id

/-- It asks for a deployment and day. -/
def Asks (crates : Crates) (wh : Option AllocationDailyDataPointFilter) (db : Db)
    (day : DeploymentDay) : Prop :=
  WantsUnder crates wh day (measuredOn db day) (dayId day)

/-- The text that one indexer's day is sorted and paged by. -/
def allocationId (key : DayKey) : String := key.1 ++ "-" ++ key.2.1 ++ "-" ++ toString key.2.2

/-- One indexer's measurements reach by themselves what it asks for. -/
def Reaches (crates : Crates) (wh : Option AllocationDailyDataPointFilter) (db : Db)
    (key : DayKey) : Prop :=
  WantsUnder crates wh key.2 (rowsIn db (onDay key)) (allocationId key)

/-- One entity for each deployment and day asked for, with all of its queries. -/
structure PerDeployment (crates : Crates) (wh : Option AllocationDailyDataPointFilter) (db : Db)
    (entities : List QueryDailyDataPoint) : Prop where
  ids : (entities.map QueryDailyDataPoint.id).Nodup
  one : ∀ day, Asks crates wh db day → ∃! entity, entity ∈ entities ∧ entity.day = day
  asked : ∀ entity ∈ entities, Asks crates wh db entity.day
  counts : ∀ entity ∈ entities, entity.queryCount = queriesOf (measuredOn db entity.day)

/-- On each deployment and day asked for, one indexer alone reaches what is asked for and has all
of the queries, and none does on another; no two of them write the same id. -/
structure OneIndexerEach (crates : Crates) (wh : Option AllocationDailyDataPointFilter)
    (db : Db) : Prop where
  sole : ∀ day, Asks crates wh db day → ∃ indexer,
    (∀ other, Reaches crates wh db (other, day) ↔ other = indexer) ∧
      queriesOf (rowsIn db (onDay (indexer, day))) = queriesOf (measuredOn db day)
  only : ∀ key, Reaches crates wh db key → Asks crates wh db key.2
  ids : ∀ day other, Asks crates wh db day → Asks crates wh db other →
    dayId day = dayId other → day = other

end Purpose

section Entities

variable {crates : Crates} {wh : Option AllocationDailyDataPointFilter} {db : Db}

/-- The entity of one indexer's day. -/
def entityOf (db : Db) (key : DayKey) : QueryDailyDataPoint :=
  ⟨pointOf key (rowsIn db (onDay key))⟩

private theorem day_entityOf (db : Db) (key : DayKey) : (entityOf db key).day = key.2 := rfl

private theorem queryCount_entityOf (db : Db) (key : DayKey) :
    (entityOf db key).queryCount = queriesOf (rowsIn db (onDay key)) := rfl

/-- Without an indexer a filter looks at the deployment and the day alone. -/
theorem admits_eq {f : DailyFilter} (noIndexer : f.indexer = none) (key : DayKey) :
    f.admits key = f.admitsDay key.2 := by
  simp [DailyFilter.admits, DailyFilter.admitsDay, noIndexer]

/-- A measured key has a row of the table. -/
theorem exists_of_measured {key : DayKey} (measured : rowsIn db (onDay key) ≠ []) :
    ∃ row ∈ db.foghornQos, dayKey row = key := by
  obtain ⟨row, listed⟩ := List.exists_mem_of_ne_nil _ measured
  rw [rowsIn_onDay] at listed
  obtain ⟨stored, same⟩ := List.mem_filter.mp listed
  exact ⟨row, Table.mem_rows.mp stored, of_decide_eq_true same⟩

/-- A filter matches the points of the measured keys it admits. -/
theorem mem_matching {f : DailyFilter} {point : DailyPoint} :
    point ∈ matching db f ↔ ∃ key, rowsIn db (onDay key) ≠ [] ∧ f.admits key ∧
      f.keeps (pointOf key (rowsIn db (onDay key))) ∧
        point = pointOf key (rowsIn db (onDay key)) := by
  -- The rows of an admitted key are all rows of the key.
  have rows {key : DayKey} (admitted : f.admits key) :
      (db.foghornQos.rows.filter fun row => f.admits (dayKey row)).filter
        (fun row => dayKey row = key) = rowsIn db (onDay key) := by
    rw [rowsIn_onDay, List.filter_filter]
    refine List.filter_congr fun row _ => ?_
    by_cases same : dayKey row = key
    · simp [same, admitted]
    · simp [same]
  rw [matching, List.mem_filter, List.mem_map]
  constructor
  · rintro ⟨⟨⟨key, group⟩, listed, rfl⟩, kept⟩
    obtain ⟨⟨row, stored, rfl⟩, rfl⟩ := mem_groupBy.mp listed
    have admitted := (List.mem_filter.mp stored).2
    rw [rows admitted] at kept ⊢
    refine ⟨_, ?_, admitted, kept, rfl⟩
    rw [rowsIn_onDay]
    exact List.ne_nil_of_mem (List.mem_filter.mpr
      ⟨(List.mem_filter.mp stored).1, decide_eq_true rfl⟩)
  · rintro ⟨key, measured, admitted, kept, rfl⟩
    refine ⟨⟨(key, rowsIn db (onDay key)), mem_groupBy.mpr ⟨?_, (rows admitted).symm⟩, rfl⟩, kept⟩
    obtain ⟨row, stored, same⟩ := exists_of_measured measured
    exact ⟨row, List.mem_filter.mpr ⟨Table.mem_rows.mpr stored, same ▸ admitted⟩, same⟩

/-- An entity is there for each indexer that reaches what is asked for. -/
theorem mem_allEntities (noIndexer : (filterOf crates wh).indexer = none)
    {arranged : IterOrder DailyPoint} {order : DailyOrder} {entity : QueryDailyDataPoint} :
    entity ∈ allEntities crates wh arranged db order ↔
      ∃ key, Reaches crates wh db key ∧ entity = entityOf db key := by
  unfold allEntities
  split
  · next feed =>
    simp only [List.mem_map, (order.sort_perm _ _).mem_iff, mem_matching]
    constructor
    · rintro ⟨_, ⟨key, measured, admitted, kept, rfl⟩, rfl⟩
      rw [admits_eq noIndexer] at admitted
      obtain ⟨enough, after⟩ := Bool.and_eq_true_iff.mp kept
      exact ⟨key, ⟨feed, measured, admitted, enough, after⟩, rfl⟩
    · rintro ⟨key, reaches, rfl⟩
      refine ⟨_, ⟨key, reaches.measured, ?_, ?_, rfl⟩, rfl⟩
      · rw [admits_eq noIndexer]
        exact reaches.admitted
      · exact Bool.and_eq_true_iff.mpr ⟨reaches.enough, reaches.after⟩
  · next feed =>
    constructor
    · rintro ⟨⟩
    · rintro ⟨key, reaches, -⟩
      cases feed.symm.trans reaches.feed

/-- No entity is listed twice. -/
theorem allEntities_nodup (arranged : IterOrder DailyPoint) (order : DailyOrder) :
    (allEntities crates wh arranged db order).Nodup := by
  unfold allEntities
  split
  · have distinct := (order.sort_perm arranged (matching db (filterOf crates wh))).nodup_iff.mpr
      (matching_nodup db _)
    exact distinct.map fun _ _ same => QueryDailyDataPoint.mk.inj same
  · exact .nil

/-- What one listing shows of each deployment and day tells how many indexers reach it. -/
theorem oneIndexerEach_of_entities (noIndexer : (filterOf crates wh).indexer = none)
    {arranged : IterOrder DailyPoint} {order : DailyOrder}
    (entities : PerDeployment crates wh db (allEntities crates wh arranged db order)) :
    OneIndexerEach crates wh db := by
  have listed {key : DayKey} (reaches : Reaches crates wh db key) :
      entityOf db key ∈ allEntities crates wh arranged db order :=
    (mem_allEntities noIndexer).mpr ⟨key, reaches, rfl⟩
  constructor
  · intro day asks
    obtain ⟨_, ⟨here, about⟩, unique⟩ := entities.one day asks
    obtain ⟨⟨indexer, day'⟩, reaches, rfl⟩ := (mem_allEntities noIndexer).mp here
    obtain rfl : day' = day := about
    refine ⟨indexer, fun other => ⟨fun too => ?_, fun same => same ▸ reaches⟩, ?_⟩
    · have same := unique _ ⟨listed too, rfl⟩
      exact congrArg (fun entity => entity.row.indexerAddress) same
    · have count := entities.counts _ here
      rw [queryCount_entityOf] at count
      exact_mod_cast count
  · exact fun key reaches => entities.asked _ (listed reaches)
  · intro day other asks asksOther same
    obtain ⟨first, ⟨here, rfl⟩, -⟩ := entities.one day asks
    obtain ⟨second, ⟨there, rfl⟩, -⟩ := entities.one other asksOther
    exact congrArg QueryDailyDataPoint.day
      (List.inj_on_of_nodup_map entities.ids here there same)

/-- With one indexer measured on each day there is one entity per deployment and day. -/
theorem OneIndexerEach.entities (each : OneIndexerEach crates wh db)
    (noIndexer : (filterOf crates wh).indexer = none) (arranged : IterOrder DailyPoint)
    (order : DailyOrder) :
    PerDeployment crates wh db (allEntities crates wh arranged db order) := by
  have asked : ∀ entity ∈ allEntities crates wh arranged db order,
      Asks crates wh db entity.day := by
    intro entity here
    obtain ⟨key, reaches, rfl⟩ := (mem_allEntities noIndexer).mp here
    exact each.only key reaches
  -- An entity of a day is the one of its sole indexer.
  have sole {day : DeploymentDay} {indexer : String}
      (alone : ∀ other, Reaches crates wh db (other, day) ↔ other = indexer)
      {entity : QueryDailyDataPoint} (here : entity ∈ allEntities crates wh arranged db order)
      (about : entity.day = day) : entity = entityOf db (indexer, day) := by
    obtain ⟨⟨other, day'⟩, reaches, rfl⟩ := (mem_allEntities noIndexer).mp here
    obtain rfl : day' = day := about
    rw [(alone other).mp reaches]
  constructor
  · refine (allEntities_nodup arranged order).map_on fun first here second there same => ?_
    obtain ⟨indexer, alone, -⟩ := each.sole _ (asked first here)
    have days := each.ids _ _ (asked first here) (asked second there) same
    exact (sole alone here rfl).trans (sole alone there days.symm).symm
  · intro day asks
    obtain ⟨indexer, alone, -⟩ := each.sole day asks
    refine ⟨entityOf db (indexer, day), ⟨?_, rfl⟩, fun entity ⟨here, about⟩ => ?_⟩
    · exact (mem_allEntities noIndexer).mpr ⟨_, (alone indexer).mpr rfl, rfl⟩
    · exact sole alone here about
  · exact asked
  · intro entity here
    obtain ⟨indexer, alone, all⟩ := each.sole _ (asked entity here)
    have entity_eq := sole alone here rfl
    rw [entity_eq, queryCount_entityOf, day_entityOf, all]

/-- The entities of all pages are one for each deployment and day asked for, with all of its
queries, exactly when one indexer alone was measured of each. -/
theorem query_points_per_deployment_iff (crates : Crates)
    (wh : Option AllocationDailyDataPointFilter) (db : Db)
    (noIndexer : ∀ w, wh = some w → w.indexerWallet = none) :
    (∀ arranged order, PerDeployment crates wh db (allEntities crates wh arranged db order)) ↔
      OneIndexerEach crates wh db := by
  have noIndexer : (filterOf crates wh).indexer = none := by
    cases wh with
    | none => rfl
    | some w => simp [filterOf, AllocationDailyDataPointFilter.apply, noIndexer w rfl]
  constructor
  · exact fun always => oneIndexerEach_of_entities noIndexer (always .asInserted .dayDesc)
  · exact fun each arranged order => each.entities noIndexer arranged order

end Entities

section Plain

private theorem dash_notMem_natural {number : Int} (natural : 0 ≤ number) :
    '-' ∉ number.repr.toList := by
  rw [Int.repr_eq_if, if_pos natural, Nat.toList_repr]
  exact notMem_toDigits rfl _

/-- Only one first separator splits a list. -/
theorem split_unique {sep : Char} {first second rest other : List Char} (notFirst : sep ∉ first)
    (notSecond : sep ∉ second) (same : first ++ sep :: rest = second ++ sep :: other) :
    first = second ∧ rest = other := by
  obtain ⟨words, ends⟩ := word_append_inj notFirst notSecond (by simp) (by simp) same
  exact ⟨words, (List.cons.inj ends).2⟩

/-- From 1970 on the ids of two deployments and days differ. -/
theorem dayId_inj {day other : DeploymentDay} (natural : 0 ≤ day.2) (natural' : 0 ≤ other.2)
    (same : dayId day = dayId other) : day = other := by
  -- The day is what stands behind the last dash.
  have texts : day.2.repr.toList.reverse ++ '-' :: day.1.toList.reverse =
      other.2.repr.toList.reverse ++ '-' :: other.1.toList.reverse := by
    have lists := congrArg (fun text => text.toList.reverse) same
    simpa [dayId] using lists
  obtain ⟨days, deployments⟩ := split_unique
    (fun found => dash_notMem_natural natural (List.mem_reverse.mp found))
    (fun found => dash_notMem_natural natural' (List.mem_reverse.mp found)) texts
  have deployments := String.toList_injective (List.reverse_injective deployments)
  have days := repr_injective (String.toList_injective (List.reverse_injective days))
  exact Prod.ext deployments days

variable {crates : Crates} {wh : Option AllocationDailyDataPointFilter} {db : Db}

private theorem exists_of_measuredOn {day : DeploymentDay} (measured : measuredOn db day ≠ []) :
    ∃ row ∈ db.foghornQos, (dayKey row).2 = day := by
  obtain ⟨row, listed⟩ := List.exists_mem_of_ne_nil _ measured
  obtain ⟨stored, same⟩ := List.mem_filter.mp listed
  exact ⟨row, Table.mem_rows.mp stored, of_decide_eq_true same⟩

/-- The measurements of a day are those of an indexer that all of them are of. -/
theorem rowsIn_of_sole {indexer : String} {day : DeploymentDay}
    (sole : ∀ row ∈ db.foghornQos, (dayKey row).2 = day → row.indexerAddress = indexer) :
    rowsIn db (onDay (indexer, day)) = measuredOn db day := by
  rw [rowsIn_onDay]
  refine List.filter_congr fun row listed => ?_
  rw [decide_eq_decide, Prod.ext_iff]
  exact ⟨fun both => both.2, fun same => ⟨sole row (Table.mem_rows.mp listed) same, same⟩⟩

/-- Without a least query count and an id to start after, it is enough that one indexer was
measured of each deployment and day, none before 1970. -/
theorem oneIndexerEach_of_plain (plain : (filterOf crates wh).queryCountGte = none ∧
      (filterOf crates wh).idGt = none)
    (sole : ∀ row ∈ db.foghornQos, ∀ other ∈ db.foghornQos,
      (dayKey row).2 = (dayKey other).2 → row.indexerAddress = other.indexerAddress)
    (after1970 : ∀ row ∈ db.foghornQos, 0 ≤ row.bucketStart) : OneIndexerEach crates wh db := by
  have natural {day : DeploymentDay} (asks : Asks crates wh db day) : 0 ≤ day.2 := by
    obtain ⟨row, stored, rfl⟩ := exists_of_measuredOn asks.measured
    exact Int.ediv_nonneg (after1970 row stored) (by decide)
  have wants {day : DeploymentDay} {rows rows' : List QosRow} {id id' : String}
      (wanted : WantsUnder crates wh day rows id) (measured : rows' ≠ []) :
      WantsUnder crates wh day rows' id' := by
    refine ⟨wanted.feed, measured, wanted.admitted, ?_, ?_⟩
    · rw [plain.1]
      rfl
    · rw [plain.2]
      rfl
  constructor
  · intro day asks
    obtain ⟨row, stored, about⟩ := exists_of_measuredOn asks.measured
    have whole : rowsIn db (onDay (row.indexerAddress, day)) = measuredOn db day :=
      rowsIn_of_sole fun other there same => sole other there row stored (same.trans about.symm)
    refine ⟨row.indexerAddress, fun other => ⟨fun reaches => ?_, ?_⟩, by rw [whole]⟩
    · obtain ⟨found, there, same⟩ := exists_of_measured reaches.measured
      have together : (dayKey found).2 = (dayKey row).2 := by rw [same, about]
      rw [← sole found there row stored together]
      exact (congrArg Prod.fst same).symm
    · rintro rfl
      exact wants asks (whole ▸ asks.measured)
  · intro key reaches
    obtain ⟨row, stored, same⟩ := exists_of_measured reaches.measured
    exact wants reaches (List.ne_nil_of_mem (List.mem_filter.mpr
      ⟨Table.mem_rows.mpr stored, decide_eq_true (congrArg Prod.snd same)⟩))
  · exact fun day other asks asksOther same => dayId_inj (natural asks) (natural asksOther) same

end Plain

section Samples

private theorem no_where (w : AllocationDailyDataPointFilter) (named : none = some w) :
    w.indexerWallet = none := by
  cases named

/-- Two indexers of one deployment give two entities of one id. -/
theorem two_indexers_refute :
    ¬ ∀ (crates : Crates) (wh : Option AllocationDailyDataPointFilter) (db : Db),
      (∀ w, wh = some w → w.indexerWallet = none) →
        ∀ arranged order, PerDeployment crates wh db (allEntities crates wh arranged db order) := by
  intro always
  have entities := always (Crates.knowing [] []) none twoIndexers no_where .asInserted .dayDesc
  have perm : ((allEntities (Crates.knowing [] []) none .asInserted twoIndexers .dayDesc).map
      QueryDailyDataPoint.id).Perm (((matching twoIndexers {}).map .mk).map QueryDailyDataPoint.id) :=
    ((DailyOrder.dayDesc.sort_perm .asInserted (matching twoIndexers {})).map _).map _
  have ids := perm.nodup_iff.mp entities.ids
  revert ids
  decide

/-- Two buckets of one indexer's day, a later day of another on the same deployment, and a second
deployment. -/
def soleIndexerRows : List QosRow :=
  [firstDayBucket "0xa", { firstDayBucket "0xa" with bucketStart := 300 * microsPerSecond },
    { firstDayBucket "0xb" with bucketStart := daysMicros 1 },
    { firstDayBucket "0xb" with deploymentId := "Qn" }]

def soleIndexers : Db :=
  { Db.empty with foghornQos := ⟨soleIndexerRows, by decide⟩ }

/-- A `where` of a deployment. -/
def ofQm : AllocationDailyDataPointFilter := { subgraphDeploymentIpfsHash := some "Qm" }

/-- Its two days have an entity each. -/
theorem one_indexer_per_deployment :
    (matching soleIndexers (filterOf (Crates.knowing [] []) (some ofQm))).length = 2 ∧
      PerDeployment (Crates.knowing [] []) (some ofQm) soleIndexers
        (allEntities (Crates.knowing [] []) (some ofQm) .asInserted soleIndexers .dayDesc) := by
  have unnamed : ∀ w, some ofQm = some w → w.indexerWallet = none := by
    rintro w ⟨⟩
    rfl
  refine ⟨by decide, (query_points_per_deployment_iff (Crates.knowing [] []) (some ofQm)
    soleIndexers unnamed).mpr (oneIndexerEach_of_plain ⟨rfl, rfl⟩ ?_ ?_) .asInserted .dayDesc⟩
  · have sole : ∀ row ∈ soleIndexerRows, ∀ other ∈ soleIndexerRows,
        (dayKey row).2 = (dayKey other).2 → row.indexerAddress = other.indexerAddress := by
      decide
    exact fun row stored other there =>
      sole row (Table.mem_rows.mpr stored) other (Table.mem_rows.mpr there)
  · have natural : ∀ row ∈ soleIndexerRows, 0 ≤ row.bucketStart := by decide
    exact fun row stored => natural row (Table.mem_rows.mpr stored)

end Samples

end Foghorn.Api
