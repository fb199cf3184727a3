import Foghorn.Api.QueryPoints
import Foghorn.Std.LivePages

/-!
# The connections of daily points

The daily points are asked for at the root, under a deployment and under an indexer, with the same
arguments. A client that reads them in id order goes on after the last id of its page, and buckets
are rolled up between its pages.
-/

namespace Foghorn.Api

open Foghorn.Std Foghorn.Core Foghorn.Probe

/-- Where a connection hangs: `indexer` and `deployment` are what its node has of either. -/
structure PointsNode where
  indexer : Option String := none
  deployment : Option String := none

/-- What the node says wins over a `where` that names another. -/
def PointsNode.own (node : PointsNode) (f : DailyFilter) : DailyFilter :=
  { f with
    indexer := node.indexer.or f.indexer
    deployment := node.deployment.or f.deployment }

/-- `DailyFilter::for_indexer` and `DailyFilter::for_deployment`. -/
def DailyFilter.forIndexer (crates : Crates) (address : String) : DailyFilter :=
  { indexer := some (crates.lowercase address) }

def DailyFilter.forDeployment (deploymentId : String) : DailyFilter :=
  { deployment := some deploymentId }

section Requests

variable (crates : Crates)

def connectionFilter (node : PointsNode) (base : DailyFilter)
    (wh : Option AllocationDailyDataPointFilter) : DailyFilter :=
  node.own (wh.elim base fun w => w.apply crates base)

def connection (node : PointsNode) (base : DailyFilter)
    (wh : Option AllocationDailyDataPointFilter) (arranged : IterOrder DailyPoint) (db : Db)
    (first skip : Option Int) (orderBy : Option AllocationOrderBy) (dir : Option OrderDirection) :
    List DailyPoint :=
  let f := { connectionFilter crates node base wh with order := orderOf orderBy dir }
  pointsFor arranged db (feedOf wh) (f.firstSkip first skip)

/-- `QueryRoot.allocationDailyDataPoints`. -/
def allocationDailyDataPoints := connection crates {} {}

structure SubgraphDeployment where
  id : String

def SubgraphDeployment.node (self : SubgraphDeployment) : PointsNode := { deployment := self.id }

def SubgraphDeployment.allocationDailyDataPoints (self : SubgraphDeployment) :=
  connection crates self.node (.forDeployment self.id)

structure Indexer where
  id : String

def Indexer.node (self : Indexer) : PointsNode := { indexer := self.id }

def Indexer.allocationDailyDataPoints (self : Indexer) :=
  connection crates self.node (.forIndexer crates self.id)

/-- `QueryRoot.indexer` and `QueryRoot.subgraphDeployment`, and the links of a point. -/
def indexer (id : String) : Indexer := ⟨crates.lowercase id⟩

def subgraphDeployment (id : String) : SubgraphDeployment := ⟨id⟩

end Requests

def DailyPoint.indexer (self : DailyPoint) : Indexer := ⟨self.indexerAddress⟩

def DailyPoint.subgraphDeployment (self : DailyPoint) : SubgraphDeployment := ⟨self.deploymentId⟩

/-- All points of a connection, whatever the page. -/
def connectionPoints (crates : Crates) (node : PointsNode) (base : DailyFilter)
    (wh : Option AllocationDailyDataPointFilter) (db : Db) : List DailyPoint :=
  match feedOf wh with
  | .measured => matching db (connectionFilter crates node base wh)
  | .foreign => []

section Points

variable {crates : Crates} {wh : Option AllocationDailyDataPointFilter} {db : Db}
  {point : DailyPoint}

/-- A connection lists exactly the measured points that match its filter. -/
theorem mem_connectionPoints {node : PointsNode} {base : DailyFilter} :
    point ∈ connectionPoints crates node base wh db ↔
      feedOf wh = .measured ∧ point ∈ matching db (connectionFilter crates node base wh) := by
  rw [connectionPoints]
  cases feedOf wh <;> simp

private theorem connectionPoints_nodup (node : PointsNode) (base : DailyFilter) :
    (connectionPoints crates node base wh db).Nodup := by
  rw [connectionPoints]
  split
  · exact matching_nodup db _
  · exact List.nodup_nil

/-- What a connection returns is a page of all its points, in the order asked for. -/
theorem connection_eq (node : PointsNode) (base : DailyFilter) (arranged : IterOrder DailyPoint)
    (first skip : Option Int) (orderBy : Option AllocationOrderBy) (dir : Option OrderDirection) :
    connection crates node base wh arranged db first skip orderBy dir =
      (((orderOf orderBy dir).sort arranged (connectionPoints crates node base wh db)).drop
        (DailyFilter.firstSkip {} first skip).skip).take
          (DailyFilter.firstSkip {} first skip).limit := by
  unfold connection connectionPoints
  cases feedOf wh with
  | measured => rfl
  | foreign =>
    have nothing : (orderOf orderBy dir).sort arranged [] = [] :=
      List.perm_nil.mp (DailyOrder.sort_perm _ _ _)
    simp [pointsFor, nothing]

end Points

section Pages

variable {crates : Crates} {node : PointsNode} {base : DailyFilter}

/-- The points after an id are those of the connection that come after it. -/
theorem matching_after (db : Db) (f : DailyFilter) (last : Option String) :
    matching db { f with idGt := last } =
      rowsAfter DailyPoint.id last (matching db { f with idGt := none }) := by
  rw [matching, matching, rowsAfter, List.filter_filter]
  refine List.filter_congr fun point _ => ?_
  simp only [DailyFilter.keeps, Option.all_none, Bool.and_true]
  exact Bool.and_comm _ _

def AllocationDailyDataPointFilter.after (wh : AllocationDailyDataPointFilter)
    (last : Option String) : AllocationDailyDataPointFilter :=
  { wh with idGt := last }

/-- One page of a client that goes on after `last`. -/
def pageAfter (crates : Crates) (node : PointsNode) (base : DailyFilter)
    (wh : AllocationDailyDataPointFilter) (first : Option Int)
    (arranged : Nat → IterOrder DailyPoint) (db : Nat → Db) (query : Nat) (last : Option String) :
    List DailyPoint :=
  connection crates node base (some (wh.after last)) (arranged query) (db query) first none
    (some .id) none

/-- What the client would be shown of a table, without an end. -/
def clientPoints (crates : Crates) (node : PointsNode) (base : DailyFilter)
    (wh : AllocationDailyDataPointFilter) (db : Db) : List DailyPoint :=
  connectionPoints crates node base (some (wh.after none)) db

/-- With an `id_gt` condition a connection is its client's points after that id. -/
theorem connectionPoints_after (wh : AllocationDailyDataPointFilter) (db : Db)
    (last : Option String) : connectionPoints crates node base (some (wh.after last)) db =
      rowsAfter DailyPoint.id last (clientPoints crates node base wh db) := by
  have filter : connectionFilter crates node base (some (wh.after last)) =
      { connectionFilter crates node base (some (wh.after none)) with idGt := last } := rfl
  have feed : feedOf (some (wh.after last)) = feedOf (some (wh.after none)) := rfl
  rw [clientPoints, connectionPoints, connectionPoints, feed]
  cases feedOf (some (wh.after none)) with
  | measured =>
    rw [filter, matching_after]
    rfl
  | foreign => rfl

/-- A page holds the first points after an id. -/
theorem isPage_pageAfter (wh : AllocationDailyDataPointFilter) (first : Option Int)
    (arranged : Nat → IterOrder DailyPoint) (db : Nat → Db) (query : Nat) (last : Option String) :
    IsPage DailyPoint.id (DailyFilter.firstSkip {} first none).limit last
      (clientPoints crates node base wh (db query))
      (pageAfter crates node base wh first arranged db query last) := by
  refine ⟨DailyOrder.idAsc.sort (arranged query)
    (connectionPoints crates node base (some (wh.after last)) (db query)), ?_, ?_, ?_⟩
  · rw [connectionPoints_after]
    exact DailyOrder.sort_perm _ _ _
  · refine (DailyOrder.idAsc.sort_pairwise (arranged query) _).imp fun ordered => ?_
    simpa only [DailyOrder.clause, Bool.not_eq_true', decide_eq_false_iff_not, not_lt] using ordered
  · rw [pageAfter, connection_eq]
    rfl

private theorem id_of_mem_matching {db : Db} {f : DailyFilter} {point : DailyPoint}
    (member : point ∈ matching db f) : point.id = allocationId point.key := by
  obtain ⟨key, -, -, -, rfl⟩ := mem_matching.mp member
  rfl

private theorem id_of_mem_clientPoints {wh : AllocationDailyDataPointFilter} {db : Db}
    {point : DailyPoint}
    (member : point ∈ clientPoints crates node base wh db) : point.id = allocationId point.key := by
  rw [clientPoints, connectionPoints] at member
  split at member
  · exact id_of_mem_matching member
  · cases member

section Ids

/-- The id of a point tells its key, unless an address or a deployment has a dash. -/
theorem eq_of_allocationId {key other : DayKey}
    (dashless : '-' ∉ key.1.toList ∧ '-' ∉ key.2.1.toList)
    (otherDashless : '-' ∉ other.1.toList ∧ '-' ∉ other.2.1.toList)
    (same : allocationId key = allocationId other) : key = other := by
  have text (key : DayKey) : (allocationId key).toList =
      key.1.toList ++ '-' :: (key.2.1.toList ++ '-' :: (toString key.2.2).toList) := by
    simp [allocationId, String.toList_append]
  have texts := congrArg String.toList same
  rw [text, text] at texts
  obtain ⟨indexers, rest⟩ := split_unique dashless.1 otherDashless.1 texts
  obtain ⟨deployments, days⟩ := split_unique dashless.2 otherDashless.2 rest
  exact Prod.ext (String.toList_inj.mp indexers)
    (Prod.ext (String.toList_inj.mp deployments) (repr_injective (String.toList_inj.mp days)))

/-- Where no indexer address and no deployment id has a dash, points have ids of their own. -/
theorem clientPoints_ids_nodup (wh : AllocationDailyDataPointFilter) {db : Db}
    (dashless : ∀ row ∈ db.foghornQos,
      '-' ∉ row.indexerAddress.toList ∧ '-' ∉ row.deploymentId.toList) :
    ((clientPoints crates node base wh db).map DailyPoint.id).Nodup := by
  have keyed {point : DailyPoint} (member : point ∈ clientPoints crates node base wh db) :
      ('-' ∉ point.indexerAddress.toList ∧ '-' ∉ point.deploymentId.toList) ∧
        point = pointOf point.key (rowsIn db (onDay point.key)) := by
    obtain ⟨key, measured, -, -, rfl⟩ := mem_matching.mp (mem_connectionPoints.mp member).2
    obtain ⟨row, stored, rfl⟩ := exists_of_measured measured
    exact ⟨dashless row stored, rfl⟩
  refine (connectionPoints_nodup node base).map_on fun point member other otherMember same => ?_
  rw [id_of_mem_clientPoints member, id_of_mem_clientPoints otherMember] at same
  have keys := eq_of_allocationId (keyed member).1 (keyed otherMember).1 same
  rw [(keyed member).2, keys]
  exact (keyed otherMember).2.symm

end Ids

/-- A client that reads a connection by id, while the table changes in any way between its pages,
is shown no point twice, each as it was in the table of its page, and, once a page is short, every
point that was there all the time, unless two points of one table share an id. -/
theorem pages_while_changing (crates : Crates) (node : PointsNode) (base : DailyFilter)
    (wh : AllocationDailyDataPointFilter) (first : Option Int)
    (arranged : Nat → IterOrder DailyPoint) (db : Nat → Db)
    (ids : ∀ query, ((clientPoints crates node base wh (db query)).map DailyPoint.id).Nodup) :
    let page := pageAfter crates node base wh first arranged db
    (∀ count, (liveRows DailyPoint.id page wh.idGt count).Pairwise fun a b => a.id < b.id) ∧
    (∀ query, ∀ point ∈ livePage DailyPoint.id page wh.idGt query,
      point ∈ clientPoints crates node base wh (db query)) ∧
    ∀ query, (livePage DailyPoint.id page wh.idGt query).length <
        (DailyFilter.firstSkip {} first none).limit →
      ∀ key, (∀ earlier ≤ query, ∃ point ∈ clientPoints crates node base wh (db earlier),
          point.key = key ∧ wh.idGt.all fun id => id < point.id) →
        ∃ earlier ≤ query, ∃ point ∈ livePage DailyPoint.id page wh.idGt earlier,
          point.key = key := by
  have pages := @isPage_pageAfter crates node base wh first arranged db
  have served : ∀ query, ∀ point ∈ livePage DailyPoint.id
      (pageAfter crates node base wh first arranged db) wh.idGt query,
        point ∈ clientPoints crates node base wh (db query) :=
    fun query point shown => ((pages query _).mem_of_mem shown).1
  refine ⟨liveRows_strictlyAscending pages ids wh.idGt, served, fun query short key present => ?_⟩
  have named : ∀ earlier ≤ query, ∃ point ∈ clientPoints crates node base wh (db earlier),
      point.id = allocationId key := by
    intro earlier before
    obtain ⟨point, listed, rfl, -⟩ := present earlier before
    exact ⟨point, listed, id_of_mem_clientPoints listed⟩
  have after : wh.idGt.all fun id => id < allocationId key := by
    obtain ⟨point, listed, rfl, later⟩ := present 0 (Nat.zero_le _)
    rwa [id_of_mem_clientPoints listed] at later
  obtain ⟨point, shown, same⟩ := shown_of_short pages after named short
  obtain ⟨earlier, before, onPage⟩ := List.mem_flatMap.mp shown
  have bound : earlier ≤ query := Nat.lt_succ_iff.mp (List.mem_range.mp before)
  refine ⟨earlier, bound, point, onPage, ?_⟩
  -- Within one table the id tells the point.
  obtain ⟨other, listed, rfl, -⟩ := present earlier bound
  have one := List.inj_on_of_nodup_map (ids earlier) (served earlier point onPage) listed
    (same.trans (id_of_mem_clientPoints listed).symm)
  rw [one]

/-- A third indexer is rolled up after the first page. -/
def threeIndexers : Db :=
  { twoIndexers with foghornQos := twoIndexers.foghornQos.insertNew (firstDayBucket "0xaa") }

def growingTable (query : Nat) : Db := if query = 0 then twoIndexers else threeIndexers

def growingPage : Nat → Option String → List DailyPoint :=
  pageAfter (.knowing [] []) {} {} {} (some 10) (fun _ => .asInserted) growingTable

def growingPoints (query : Nat) : List DailyPoint :=
  clientPoints (.knowing [] []) {} {} {} (growingTable query)

/-- One of the first two pages shows the point that the table had from the start. -/
theorem growingTable_read : ∃ earlier ≤ 1, ∃ point ∈ livePage DailyPoint.id growingPage none earlier,
    point.key = ("0xb", "Qm", 0) := by
  have ids : ∀ query, ((growingPoints query).map DailyPoint.id).Nodup := by
    intro query
    unfold growingPoints growingTable
    refine clientPoints_ids_nodup {} ?_
    split <;> decide
  have present : ∀ earlier ≤ 1, ∃ point ∈ growingPoints earlier,
      point.key = ("0xb", "Qm", 0) ∧ Option.all (fun id => decide (id < point.id)) none := by
    intro earlier _
    unfold growingPoints growingTable
    split <;> decide
  have few : (livePage DailyPoint.id growingPage none 1).length ≤ (growingPoints 1).length :=
    (isPage_pageAfter {} (some 10) (fun _ => .asInserted) growingTable 1 _).length_le
  exact (pages_while_changing (.knowing [] []) {} {} {} (some 10) (fun _ => .asInserted) growingTable
    ids).2.2 1 (Nat.lt_of_le_of_lt few (by decide)) _ present

end Pages

def SubgraphDeployment.points (crates : Crates) (self : SubgraphDeployment)
    (wh : Option AllocationDailyDataPointFilter) (db : Db) : List DailyPoint :=
  connectionPoints crates self.node (.forDeployment self.id) wh db

def Indexer.points (crates : Crates) (self : Indexer)
    (wh : Option AllocationDailyDataPointFilter) (db : Db) : List DailyPoint :=
  connectionPoints crates self.node (.forIndexer crates self.id) wh db

def rootPoints (crates : Crates) (wh : Option AllocationDailyDataPointFilter) (db : Db) :
    List DailyPoint :=
  connectionPoints crates {} {} wh db

/-- How the connections of one `where` hang together. -/
structure NodesAgree (crates : Crates) (wh : Option AllocationDailyDataPointFilter) (db : Db) :
    Prop where
  /-- A node has points of its own only, whatever `where` names. -/
  ofDeployment : ∀ self : SubgraphDeployment, ∀ point ∈ self.points crates wh db,
    point.deploymentId = self.id
  ofIndexer : ∀ self : Indexer, ∀ point ∈ self.points crates wh db, point.indexerAddress = self.id
  /-- The links of a point lead back to it. -/
  linked : ∀ point ∈ rootPoints crates wh db,
    point ∈ point.subgraphDeployment.points crates wh db ∧ point ∈ point.indexer.points crates wh db
  /-- All deployments together have the points of the root, and so have all indexers. -/
  deployments : (wh.bind AllocationDailyDataPointFilter.subgraphDeploymentIpfsHash) = none →
    ((db.foghornQos.rows.map QosRow.deploymentId).dedup.flatMap fun id =>
      (subgraphDeployment id).points crates wh db).Perm (rootPoints crates wh db)
  indexers : (wh.bind AllocationDailyDataPointFilter.indexerWallet) = none →
    ((db.foghornQos.rows.map QosRow.indexerAddress).dedup.flatMap fun id =>
      (Indexer.mk id).points crates wh db).Perm (rootPoints crates wh db)

section Nodes

variable {crates : Crates} {wh : Option AllocationDailyDataPointFilter} {db : Db}
  {point : DailyPoint}

/-- A deployment's points are the measured ones that match the filter under its id. -/
theorem mem_deploymentPoints {self : SubgraphDeployment} :
    point ∈ self.points crates wh db ↔ feedOf wh = .measured ∧
      point ∈ matching db { connectionFilter crates {} {} wh with deployment := some self.id } := by
  have filter : connectionFilter crates self.node (.forDeployment self.id) wh =
      { connectionFilter crates {} {} wh with deployment := some self.id } := by
    cases wh <;> rfl
  rw [← filter]
  exact mem_connectionPoints

/-- An indexer's points are the measured ones that match the filter under its id. -/
theorem mem_indexerPoints {self : Indexer} :
    point ∈ self.points crates wh db ↔ feedOf wh = .measured ∧
      point ∈ matching db { connectionFilter crates {} {} wh with indexer := some self.id } := by
  have filter : connectionFilter crates self.node (.forIndexer crates self.id) wh =
      { connectionFilter crates {} {} wh with indexer := some self.id } := by
    cases wh <;> rfl
  rw [← filter]
  exact mem_connectionPoints

/-- The points that a further condition on their key leaves. -/
theorem mem_matching_of {f g : DailyFilter} (field : DayKey → String) {id : String}
    (admits : ∀ key, g.admits key ↔ f.admits key ∧ field key = id) (keeps : g.keeps = f.keeps) :
    point ∈ matching db g ↔ point ∈ matching db f ∧ field point.key = id := by
  rw [mem_matching, mem_matching, keeps]
  constructor
  · rintro ⟨key, measured, admitted, kept, rfl⟩
    obtain ⟨admitted, same⟩ := (admits key).mp admitted
    exact ⟨⟨key, measured, admitted, kept, rfl⟩, same⟩
  · rintro ⟨⟨key, measured, admitted, kept, rfl⟩, same⟩
    exact ⟨key, measured, (admits key).mpr ⟨admitted, same⟩, kept, rfl⟩

private theorem admits_deployment {f : DailyFilter} (id : String) (key : DayKey) :
    ({ f with deployment := some id } : DailyFilter).admits key ↔
      ({ f with deployment := none } : DailyFilter).admits key ∧ key.2.1 = id := by
  simp only [DailyFilter.admits, Option.all_some, Option.all_none, Bool.and_true, Bool.and_eq_true,
    decide_eq_true_eq]
  tauto

private theorem admits_indexer {f : DailyFilter} (id : String) (key : DayKey) :
    ({ f with indexer := some id } : DailyFilter).admits key ↔
      ({ f with indexer := none } : DailyFilter).admits key ∧ key.1 = id := by
  simp only [DailyFilter.admits, Option.all_some, Option.all_none, Bool.true_and, Bool.and_eq_true,
    decide_eq_true_eq]
  tauto

/-- Narrowing a filter to a deployment keeps exactly the points of that deployment. -/
theorem mem_matching_deployment {f : DailyFilter} {id : String} :
    point ∈ matching db { f with deployment := some id } ↔
      point ∈ matching db { f with deployment := none } ∧ point.deploymentId = id :=
  mem_matching_of (fun key => key.2.1) (admits_deployment id) rfl

/-- Narrowing a filter to an indexer keeps exactly the points of that indexer. -/
theorem mem_matching_indexer {f : DailyFilter} {id : String} :
    point ∈ matching db { f with indexer := some id } ↔
      point ∈ matching db { f with indexer := none } ∧ point.indexerAddress = id :=
  mem_matching_of (fun key => key.1) (admits_indexer id) rfl

/-- Without its condition on one field a filter matches no less. -/
theorem matching_subset {f g : DailyFilter} (member : point ∈ matching db f)
    (admits : ∀ key, f.admits key → g.admits key) (keeps : g.keeps = f.keeps) :
    point ∈ matching db g := by
  obtain ⟨key, measured, admitted, kept, rfl⟩ := mem_matching.mp member
  exact mem_matching.mpr ⟨key, measured, admits key admitted, keeps ▸ kept, rfl⟩

private theorem without_deployment {f : DailyFilter} (open_ : f.deployment = none) :
    { f with deployment := none } = f := by
  cases f
  cases open_
  rfl

private theorem without_indexer {f : DailyFilter} (open_ : f.indexer = none) :
    { f with indexer := none } = f := by
  cases f
  cases open_
  rfl

/-- A matching point is found again under the deployment it links to. -/
theorem linked_deployment {f : DailyFilter} (member : point ∈ matching db f) :
    point ∈ matching db { f with deployment := some point.deploymentId } := by
  refine mem_matching_deployment.mpr ⟨matching_subset member (fun key admitted => ?_) rfl, rfl⟩
  simp only [DailyFilter.admits, Bool.and_eq_true] at admitted ⊢
  exact ⟨⟨⟨⟨admitted.1.1.1.1, rfl⟩, admitted.1.1.2⟩, admitted.1.2⟩, admitted.2⟩

/-- A matching point is found again under the indexer it links to. -/
theorem linked_indexer {f : DailyFilter} (member : point ∈ matching db f) :
    point ∈ matching db { f with indexer := some point.indexerAddress } := by
  refine mem_matching_indexer.mpr ⟨matching_subset member (fun key admitted => ?_) rfl, rfl⟩
  simp only [DailyFilter.admits, Bool.and_eq_true] at admitted ⊢
  exact ⟨⟨⟨⟨rfl, admitted.1.1.1.2⟩, admitted.1.1.2⟩, admitted.1.2⟩, admitted.2⟩

/-- Nodes that divide the points of the root by a field, and have all of its values, hold every
point once. -/
theorem nodes_perm (field : DailyPoint → String) (column : QosRow → String)
    (stored : ∀ key (row : QosRow), dayKey row = key →
      column row = field (pointOf key (rowsIn db (onDay key))))
    {points : String → List DailyPoint} (nodup : ∀ id, (points id).Nodup)
    (own : ∀ id point, point ∈ points id ↔ point ∈ rootPoints crates wh db ∧ field point = id) :
    ((db.foghornQos.rows.map column).dedup.flatMap points).Perm (rootPoints crates wh db) := by
  have rootNodup : (rootPoints crates wh db).Nodup := connectionPoints_nodup _ _
  have covered : ∀ point ∈ rootPoints crates wh db,
      field point ∈ (db.foghornQos.rows.map column).dedup := by
    intro point member
    obtain ⟨key, measured, -, -, rfl⟩ := mem_matching.mp (mem_connectionPoints.mp member).2
    obtain ⟨row, present, same⟩ := exists_of_measured measured
    exact List.mem_dedup.mpr
      (List.mem_map.mpr ⟨row, Table.mem_rows.mpr present, stored key row same⟩)
  refine List.Perm.trans (List.Perm.flatMap_left _ fun id _ => ?_)
    (flatMap_filter_perm field (List.nodup_dedup _) covered)
  refine (List.perm_ext_iff_of_nodup (nodup id) (rootNodup.filter _)).mpr fun point => ?_
  rw [own, List.mem_filter, decide_eq_true_eq]

end Nodes

/-- For every `where` and table the connection at the root and those of the nodes agree. -/
theorem nodes_agree (crates : Crates) (wh : Option AllocationDailyDataPointFilter) (db : Db) :
    NodesAgree crates wh db where
  ofDeployment self point member :=
    (mem_matching_deployment.mp (mem_deploymentPoints.mp member).2).2
  ofIndexer self point member := (mem_matching_indexer.mp (mem_indexerPoints.mp member).2).2
  linked point member := by
    obtain ⟨feed, member⟩ := mem_connectionPoints.mp member
    exact ⟨mem_deploymentPoints.mpr ⟨feed, linked_deployment member⟩,
      mem_indexerPoints.mpr ⟨feed, linked_indexer member⟩⟩
  deployments unnamed := by
    have open_ : (connectionFilter crates {} {} wh).deployment = none := by
      cases wh with
      | none => rfl
      | some w => exact Option.or_none.trans unnamed
    refine nodes_perm DailyPoint.deploymentId QosRow.deploymentId
      (fun key row same => congrArg (fun key => key.2.1) same)
      (fun id => connectionPoints_nodup _ _) fun id point => ?_
    rw [mem_deploymentPoints, mem_matching_deployment, without_deployment open_, ← and_assoc]
    exact and_congr_left fun _ => mem_connectionPoints.symm
  indexers unnamed := by
    have open_ : (connectionFilter crates {} {} wh).indexer = none := by
      cases wh with
      | none => rfl
      | some w =>
        have free : w.indexerWallet = none := unnamed
        simp [connectionFilter, PointsNode.own, AllocationDailyDataPointFilter.apply, free]
    refine nodes_perm DailyPoint.indexerAddress QosRow.indexerAddress
      (fun key row same => congrArg (fun key => key.1) same)
      (fun id => connectionPoints_nodup _ _) fun id point => ?_
    rw [mem_indexerPoints, mem_matching_indexer, without_indexer open_, ← and_assoc]
    exact and_congr_left fun _ => mem_connectionPoints.symm

end Foghorn.Api
