import Foghorn.Probe.Allocations
import Foghorn.Probe.Profiles
import Foghorn.Probe.Swarms

/-!
# Storing the swarms

A detection writes its clusters one statement at a time, drops those of other ids at the end,
and returns what the grades are computed from. The id of a cluster is a short digest of its
members, and the rows are under the id: what the pages tell of an address is what the grades
were told unless two clusters share one.
-/

namespace Foghorn.Probe

open Foghorn.Std Foghorn.Core

def minStakeGrt : ℚ := 1000000

/-- Pages that `fetch_allocation_footprints` asks for. -/
def footprintPages : Nat := 6

/-- The deployments of each indexer; none of one that is not in the map. -/
abbrev Footprints := String → Finset String

/-- `sybil_cluster`. -/
structure SwarmRow where
  cluster : SybilCluster
  detectedAt : Int

def SwarmRow.clusterId (row : SwarmRow) : String := row.cluster.clusterId

abbrev SwarmTable := Table SwarmRow String SwarmRow.clusterId

section Footprints

variable (crates : Crates)

/-- An anonymous indexer of some age and stake. -/
def candidateOf (row : IndexerProfile) : Option Candidate := do
  let created ← row.roster.createdAt
  let stake ← row.roster.selfStakeGrt
  if row.roster.ensName = none ∧ minStakeGrt ≤ stake then
    some ⟨crates.lowercase row.indexerAddress, created, stake, ∅⟩
  else none

def countFootprint (map : Footprints) (a : Json) : Footprints :=
  let indexer := crates.lowercase (((a.pointer ["indexer", "id"]).bind Json.asStr).getD "")
  let dep := ((a.pointer ["subgraphDeployment", "id"]).bind Json.asStr).getD ""
  if indexer = "" ∨ dep = "" then map else Function.update map indexer (insert dep (map indexer))

/-- What is made of an answer; errors beside the list are not looked at. -/
def footprintsPage (response : Option Json) : Page Json :=
  match response with
  | none => .fails
  | some v =>
    match entityList "allocations" v with
    | none => .ends
    | some allocs => if allocs = [] then .ends else .rows allocs

/-- `fetch_allocation_footprints`, from what the gateway answers for some indexers. -/
def fetchAllocationFootprints (ask : List String → Nat → String → Option Json)
    (addresses : List String) : Option Footprints :=
  if addresses = [] then some fun _ => ∅
  else
    let ids := addresses.map crates.lowercase
    readListing idOf "" (fun length => length < gatewayPageSize)
      (fun page last => footprintsPage (ask ids page last)) (countFootprint crates) footprintPages
      fun _ => ∅

end Footprints

inductive SwarmStatement where
  | upsertCluster (found : SybilCluster)
  | deleteOthers (current : List String)

/-- A statement executed at a time. -/
def SwarmStatement.exec : Int × SwarmStatement → SwarmTable → SwarmTable
  | (now, .upsertCluster found), table =>
    table.upsert ⟨found, now⟩ (fun _ => ⟨found, now⟩) fun _ _ => rfl
  | (_, .deleteOthers current), table => table.deleteWhere fun row => row.clusterId ∉ current

/-- One call of `detect_and_store`. -/
structure SwarmDetection where
  /-- What had been ingested when it read the profiles. -/
  passes : List LodestarPass
  profileOrder : IterOrder IndexerProfile
  /-- The answers of the gateway, if there is a key for it. -/
  ask : Option (List String → Nat → String → Option Json)
  groupOrder : (candidates : List Candidate) →
    IterOrder (Fin candidates.length × List (Fin candidates.length))
  clock : Nat → Int
  /-- After how many statements it failed or was killed, if it was. -/
  stop : Option Nat

namespace SwarmDetection

variable (crates : Crates) (detection : SwarmDetection)

/-- The candidates as the profiles have them. -/
def anonymous : List Candidate :=
  (detection.profileOrder.arrange (ingested crates detection.passes).rows).filterMap
    (candidateOf crates)

/-- The candidates with their footprints, or without any where they could not be fetched. -/
def candidates : List Candidate :=
  let listed := detection.anonymous crates
  match detection.ask.bind fun ask =>
    fetchAllocationFootprints crates ask (listed.map Candidate.address) with
  | some footprints => listed.map fun c => { c with allocations := footprints c.address }
  | none => listed

def clusters : List SybilCluster :=
  (cluster (detection.candidates crates) crates (detection.groupOrder _)).getD []

def program : List SwarmStatement :=
  (detection.clusters crates).map .upsertCluster ++
    [.deleteOthers ((detection.clusters crates).map SybilCluster.clusterId)]

/-- The rows of the clusters, with the times at which they are written. -/
def rows : List SwarmRow :=
  (detection.clusters crates).mapIdx fun n found => ⟨found, detection.clock n⟩

/-- The statements with the times at which they execute. -/
def stamped : List (Int × SwarmStatement) :=
  (detection.program crates).mapIdx fun n statement => (detection.clock n, statement)

def executed : List (Int × SwarmStatement) :=
  match detection.stop with
  | none => detection.stamped crates
  | some count => (detection.stamped crates).take count

/-- `detect_and_store`, as far as it comes. -/
def run (table : SwarmTable) : SwarmTable :=
  runAll SwarmStatement.exec (detection.executed crates) table

/-- The map that is returned, unless the detection fails. -/
def returned : Option SybilMap :=
  match detection.stop with
  | none => some (mapOfPairs ((detection.clusters crates).flatMap fun c =>
      c.members.map fun member => (member, c.clusterId, c.confidence)))
  | some _ => none

end SwarmDetection

/-- A page tells the id and the confidence of a swarm of an address. -/
def Tells (page : List SwarmRow) (address : String) (told : String × ℚ) : Prop :=
  ∃ row ∈ page, address ∈ row.cluster.members ∧
    (row.cluster.clusterId, row.cluster.confidence) = told

/-- The table after detections one after the other, from none. -/
def detected (crates : Crates) (detections : List SwarmDetection) : SwarmTable :=
  detections.foldl (fun table detection => detection.run crates table) Table.empty

/-- What the scorecard may show of the swarm of an address: any of these. -/
def swarmsOf (table : SwarmTable) (address : String) : List SwarmRow :=
  table.rows.filter fun row => address ∈ row.cluster.members

/-- `sybil_clusters`. -/
def sybilClusters (order : IterOrder SwarmRow) (table : SwarmTable) : List SwarmRow :=
  (order.arrange table.rows).mergeSort fun first second =>
    second.cluster.confidence < first.cluster.confidence ∨
      second.cluster.confidence = first.cluster.confidence ∧
        second.cluster.memberCount ≤ first.cluster.memberCount

section Candidates

variable {crates : Crates} {detection : SwarmDetection}

/-- A profile is a candidate when it is dated, unnamed and staked enough. -/
theorem candidateOf_eq_some_iff {row : IndexerProfile} {c : Candidate} :
    candidateOf crates row = some c ↔ ∃ created stake, row.roster.createdAt = some created ∧
      row.roster.selfStakeGrt = some stake ∧ row.roster.ensName = none ∧ minStakeGrt ≤ stake ∧
        c = ⟨crates.lowercase row.indexerAddress, created, stake, ∅⟩ := by
  simp only [candidateOf, Option.bind_eq_bind, Option.bind_eq_some_iff,
    Option.ite_none_right_eq_some,
    Option.some.injEq]
  constructor
  · rintro ⟨created, born, stake, staked, ⟨anonymous, enough⟩, rfl⟩
    exact ⟨created, stake, born, staked, anonymous, enough, rfl⟩
  · rintro ⟨created, stake, born, staked, anonymous, enough, rfl⟩
    exact ⟨created, born, stake, staked, ⟨anonymous, enough⟩, rfl⟩

variable (crates detection) in
/-- The footprints change nothing else of the candidates. -/
theorem exists_footprints : ∃ footprints : Footprints, detection.candidates crates =
    (detection.anonymous crates).map fun c => { c with allocations := footprints c.address } := by
  unfold SwarmDetection.candidates
  dsimp only
  split
  · next footprints _ => exact ⟨footprints, rfl⟩
  · refine ⟨fun _ => ∅, (List.map_id _).symm.trans (List.map_congr_left fun c listed => ?_)⟩
    obtain ⟨row, -, candidate⟩ := List.mem_filterMap.mp listed
    obtain ⟨created, stake, -, -, -, -, rfl⟩ := candidateOf_eq_some_iff.mp candidate
    rfl

private theorem positive_candidates : ∀ c ∈ detection.candidates crates, 0 < c.stake := by
  obtain ⟨footprints, shape⟩ := exists_footprints crates detection
  intro c member
  rw [shape] at member
  obtain ⟨plain, listed, rfl⟩ := List.mem_map.mp member
  obtain ⟨row, -, candidate⟩ := List.mem_filterMap.mp listed
  obtain ⟨created, stake, -, -, -, enough, rfl⟩ := candidateOf_eq_some_iff.mp candidate
  exact lt_of_lt_of_le (by norm_num [minStakeGrt]) enough

variable (detection) in
/-- No two candidates share an address. -/
theorem distinct_candidates (lowers : LowersOnce crates) :
    ((detection.candidates crates).map Candidate.address).Nodup := by
  obtain ⟨footprints, shape⟩ := exists_footprints crates detection
  rw [shape, List.map_map]
  have lowered : ((detection.profileOrder.arrange (ingested crates detection.passes).rows).map
      fun row => crates.lowercase row.indexerAddress) =
      (detection.profileOrder.arrange (ingested crates detection.passes).rows).map
        IndexerProfile.indexerAddress := by
    refine List.map_congr_left fun row member => ?_
    obtain ⟨text, same⟩ :=
      address_of_mem_ingested ((detection.profileOrder.mem_arrange _ _).mp member)
    rw [← same, lowers]
  have named : ∀ row c, candidateOf crates row = some c →
      c.address = crates.lowercase row.indexerAddress := by
    intro row c candidate
    obtain ⟨created, stake, -, -, -, -, rfl⟩ := candidateOf_eq_some_iff.mp candidate
    rfl
  refine nodup_map_filterMap named ?_
  rw [lowered]
  exact ((detection.profileOrder.perm _).map _).nodup_iff.mpr
    (ingested crates detection.passes).unique

private theorem cluster_eq_clusters :
    cluster (detection.candidates crates) crates (detection.groupOrder _) =
    some (detection.clusters crates) := by
  obtain ⟨clusters, done⟩ := exists_cluster (detection.candidates crates) crates
    (detection.groupOrder _)
  rw [SwarmDetection.clusters, done]
  rfl

variable (detection) in
/-- No address is in two clusters of one detection. -/
theorem clusters_disjoint (lowers : LowersOnce crates) : (detection.clusters crates).Pairwise
    fun one two => ∀ address ∈ one.members, address ∉ two.members :=
  cluster_disjoint (distinct_candidates detection lowers) cluster_eq_clusters

/-- A cluster lists several addresses, each of them once. -/
theorem members_of_mem_clusters (lowers : LowersOnce crates) {found : SybilCluster}
    (member : found ∈ detection.clusters crates) :
    found.members.Nodup ∧ minMembers ≤ found.members.length := by
  have distinct := distinct_candidates detection lowers
  obtain ⟨start, -, large, rfl⟩ :=
    (mem_cluster_iff positive_candidates (List.Nodup.of_map _ distinct)
    cluster_eq_clusters).mp member
  have perm :=
    List.mergeSort_perm ((swarm (detection.candidates crates) start).map Candidate.address)
    fun a b => decide (a ≤ b)
  constructor
  · refine perm.nodup_iff.mpr (distinct.sublist (List.Sublist.map _ ?_))
    exact List.filter_sublist
  · exact (perm.length_eq.trans (List.length_map _)).symm ▸ large

end Candidates

section Rows

variable {crates : Crates} {detection : SwarmDetection} {table : SwarmTable}

variable (crates detection) in
/-- A detection writes its clusters and then deletes the others. -/
theorem stamped_eq : ∃ now, detection.stamped crates =
    (detection.rows crates).map (fun row => (row.detectedAt, .upsertCluster row.cluster)) ++
      [(now, .deleteOthers ((detection.clusters crates).map SybilCluster.clusterId))] := by
  refine ⟨detection.clock
    (0 + ((detection.clusters crates).map SwarmStatement.upsertCluster).length), ?_⟩
  rw [SwarmDetection.stamped, SwarmDetection.program, List.mapIdx_append]
  refine congrArg (· ++ _) ?_
  rw [SwarmDetection.rows, List.mapIdx_eq_zipIdx_map, List.mapIdx_eq_zipIdx_map, List.zipIdx_map,
    List.map_map, List.map_map]
  rfl

private theorem runAll_upserts (rows : List SwarmRow) :
    runAll SwarmStatement.exec (rows.map fun row => (row.detectedAt, .upsertCluster row.cluster)) table =
      putAll rows table := by
  induction rows generalizing table with
  | nil => rfl
  | cons row rest ih => exact ih

private theorem clusterIds_rows : (detection.rows crates).map SwarmRow.clusterId =
    (detection.clusters crates).map SybilCluster.clusterId := by
  rw [SwarmDetection.rows, List.mapIdx_eq_zipIdx_map, List.map_map]
  conv_rhs => rw [← List.zipIdx_map_fst 0 (detection.clusters crates), List.map_map]
  rfl

private theorem exists_row_iff {found : SybilCluster} :
    (∃ row ∈ detection.rows crates, row.cluster = found) ↔ found ∈ detection.clusters crates := by
  have listed : (detection.rows crates).map SwarmRow.cluster = detection.clusters crates := by
    rw [SwarmDetection.rows, List.mapIdx_eq_zipIdx_map, List.map_map]
    exact List.zipIdx_map_fst 0 _
  rw [← listed, List.mem_map]

/-- After a detection that came to its end, an id holds what was written under it last. -/
theorem lookup_run_complete (complete : detection.stop = none) (id : String) :
    (detection.run crates table).lookup id =
      ((detection.rows crates).filter fun row => row.clusterId = id).getLast? := by
  obtain ⟨now, stamped⟩ := stamped_eq crates detection
  rw [SwarmDetection.run, SwarmDetection.executed, complete]
  dsimp only
  rw [stamped, runAll_concat, runAll_upserts, SwarmStatement.exec, Table.lookup_deleteWhere,
    lookup_putAll, lastUnder, ← clusterIds_rows]
  cases written : ((detection.rows crates).filter fun row => row.clusterId = id).getLast? with
  | some row =>
    obtain ⟨listed, under⟩ := List.mem_filter.mp (List.mem_of_getLast? written)
    have kept : row.clusterId ∈ (detection.rows crates).map SwarmRow.clusterId :=
      List.mem_map_of_mem listed
    rw [Option.some_or, Option.filter_some, if_pos (by simpa using kept)]
  | none =>
    rw [List.getLast?_eq_none_iff, List.filter_eq_nil_iff] at written
    rw [Option.none_or, Option.filter_eq_none_iff]
    intro old found
    have under := Table.key_of_lookup found
    have gone : old.clusterId ∉ (detection.rows crates).map SwarmRow.clusterId := by
      rintro member
      obtain ⟨row, listed, same⟩ := List.mem_map.mp member
      exact written row listed (decide_eq_true (same.trans under))
    simp [gone]

/-- The statements that a detection executes are of its program. -/
theorem mem_program_of_executed {statement : Int × SwarmStatement}
    (member : statement ∈ detection.executed crates) : statement.2 ∈ detection.program crates := by
  have planned : statement ∈ detection.stamped crates := by
    unfold SwarmDetection.executed at member
    split at member
    · exact member
    · exact List.mem_of_mem_take member
  obtain ⟨n, inside, rfl⟩ := List.mem_mapIdx.mp planned
  exact List.getElem_mem inside

/-- A row that is left was there before or is of a cluster of the detection. -/
theorem mem_run {row : SwarmRow} (member : row ∈ detection.run crates table) :
    row ∈ table ∨ row.cluster ∈ detection.clusters crates := by
  refine runAll_preserves
    (fun reached => ∀ row ∈ reached, row ∈ table ∨ row.cluster ∈ detection.clusters crates)
    (fun row there => .inl there) ?_ row member
  intro statement executed reached held row there
  have planned := mem_program_of_executed executed
  obtain ⟨now, statement⟩ := statement
  cases statement with
  | deleteOthers current => exact held row (Table.mem_deleteWhere.mp there).1
  | upsertCluster found =>
    have among : found ∈ detection.clusters crates := by
      simpa [SwarmDetection.program] using planned
    rw [SwarmStatement.exec] at there
    rcases Table.mem_upsert.mp there with ⟨old, -⟩ | ⟨-, -, -, rfl⟩ | ⟨-, rfl⟩
    · exact held row old
    · exact .inr among
    · exact .inr among

/-- After a complete detection the table has its rows alone. -/
theorem mem_run_complete (complete : detection.stop = none) {row : SwarmRow}
    (member : row ∈ detection.run crates table) : row ∈ detection.rows crates := by
  have found := Table.lookup_of_mem member
  rw [lookup_run_complete complete] at found
  exact (List.mem_filter.mp (List.mem_of_getLast? found)).1

private theorem cluster_of_mem_run (complete : detection.stop = none) {row : SwarmRow}
    (member : row ∈ detection.run crates table) : row.cluster ∈ detection.clusters crates :=
  exists_row_iff.mp ⟨row, mem_run_complete complete member, rfl⟩

private theorem mem_run_of_distinct (complete : detection.stop = none)
    (distinct : ((detection.clusters crates).map SybilCluster.clusterId).Nodup) {row : SwarmRow} :
    row ∈ detection.run crates table ↔ row ∈ detection.rows crates := by
  refine ⟨mem_run_complete complete, fun listed => ?_⟩
  rw [← clusterIds_rows] at distinct
  rw [Table.mem_iff_lookup, lookup_run_complete complete]
  cases last : ((detection.rows crates).filter fun other => other.clusterId = row.clusterId).getLast? with
  | none =>
    rw [List.getLast?_eq_none_iff, List.filter_eq_nil_iff] at last
    exact absurd (decide_eq_true rfl) (last row listed)
  | some other =>
    obtain ⟨also, under⟩ := List.mem_filter.mp (List.mem_of_getLast? last)
    rw [List.inj_on_of_nodup_map distinct also listed (of_decide_eq_true under)]

end Rows

section Agreement

variable {crates : Crates} {detection : SwarmDetection} {table : SwarmTable}

/-- Clusters with a shared member are one. -/
theorem eq_of_shared_member (lowers : LowersOnce crates) {one two : SybilCluster}
    (first : one ∈ detection.clusters crates) (second : two ∈ detection.clusters crates)
    {address : String} (in_one : address ∈ one.members) (in_two : address ∈ two.members) :
    one = two := by
  have disjoint := List.pairwise_iff_getElem.mp (clusters_disjoint detection lowers)
  obtain ⟨i, i_bound, rfl⟩ := List.getElem_of_mem first
  obtain ⟨j, j_bound, rfl⟩ := List.getElem_of_mem second
  rcases Nat.lt_trichotomy i j with before | rfl | after
  · exact absurd in_two (disjoint i j i_bound j_bound before address in_one)
  · rfl
  · exact absurd in_one (disjoint j i j_bound i_bound after address in_two)

/-- The map that the grades are computed from has one cluster for each address. -/
theorem distinct_returned (lowers : LowersOnce crates) :
    (((detection.clusters crates).flatMap fun c =>
      c.members.map fun member => (member, c.clusterId, c.confidence)).map Prod.fst).Nodup := by
  have members : ((detection.clusters crates).flatMap fun c =>
      c.members.map fun member => (member, c.clusterId, c.confidence)).map Prod.fst =
      (detection.clusters crates).flatMap SybilCluster.members := by
    rw [List.map_flatMap]
    refine congrArg (List.flatMap · _) (funext fun c => ?_)
    rw [List.map_map]
    exact List.map_id _
  rw [members, List.nodup_flatMap]
  exact ⟨fun c listed => (members_of_mem_clusters lowers listed).1,
    (clusters_disjoint detection lowers).imp fun apart address in_one in_two => apart address in_one in_two⟩

/-- What the grades are told of an address is the cluster that it is in. -/
theorem lookup_returned (lowers : LowersOnce crates) (complete : detection.stop = none) :
    ∃ map, detection.returned crates = some map ∧ ∀ address told,
      map.lookup address = some (address, told) ↔ ∃ found ∈ detection.clusters crates,
        address ∈ found.members ∧ (found.clusterId, found.confidence) = told := by
  refine ⟨_, by rw [SwarmDetection.returned, complete], fun address told => ?_⟩
  rw [Table.lookup_eq_some_iff, and_iff_left rfl, mem_mapOfPairs (distinct_returned lowers),
    List.mem_flatMap]
  refine exists_congr fun found => and_congr_right fun _ => ?_
  simp

/-- An address is told of a swarm exactly when a stored row has it as a member. -/
theorem tells_swarmsOf_iff {address : String} {told : String × ℚ} :
    Tells (swarmsOf table address) address told ↔ ∃ row ∈ table, address ∈ row.cluster.members ∧
      (row.cluster.clusterId, row.cluster.confidence) = told := by
  simp only [Tells, swarmsOf, List.mem_filter, decide_eq_true_eq, and_assoc, and_self_left,
    Table.mem_rows]

private theorem detected_concat {detections : List SwarmDetection} :
    detected crates (detections ++ [detection]) =
        detection.run crates (detected crates detections) := by
  rw [detected, List.foldl_concat, ← detected]

/-- Whatever was stored before and whatever is cut short after it, the listed swarms are those
of a detection that came to its end and of those since. At its end no address is in two of them,
and the scorecard of every address tells of the swarm that its grade was computed with exactly
when no two swarms share an id. -/
theorem swarm_pages_agree (crates : Crates) (lowers : LowersOnce crates)
    (before : List SwarmDetection) (detection : SwarmDetection) (complete : detection.stop = none) :
    (∀ after order, ∀ row ∈ sybilClusters order (detected crates (before ++ detection :: after)),
      ∃ source ∈ detection :: after, row.cluster ∈ source.clusters crates) ∧
    (∀ address, ∀ first ∈ swarmsOf (detected crates (before ++ [detection])) address,
      ∀ second ∈ swarmsOf (detected crates (before ++ [detection])) address, first = second) ∧
    ∃ map, detection.returned crates = some map ∧
      ((∀ address told, map.lookup address = some (address, told) ↔
          Tells (swarmsOf (detected crates (before ++ [detection])) address) address told) ↔
        ((detection.clusters crates).map SybilCluster.clusterId).Nodup) := by
  refine ⟨fun after order row listed => ?_, ?_, ?_⟩
  · have member : row ∈ detected crates (before ++ detection :: after) :=
      (order.mem_arrange _ _).mp ((List.mergeSort_perm _ _).mem_iff.mp listed)
    clear listed
    induction after using List.reverseRecOn with
    | nil =>
      rw [detected_concat] at member
      exact ⟨detection, List.mem_cons_self, cluster_of_mem_run complete member⟩
    | append_singleton earlier last ih =>
      have split : before ++ detection :: (earlier ++ [last]) =
          before ++ detection :: earlier ++ [last] := by simp
      rw [split, detected_concat] at member
      rcases mem_run member with there | found
      · obtain ⟨source, among, of_source⟩ := ih there
        exact ⟨source, List.mem_append_left [last] among, of_source⟩
      · exact ⟨last, List.mem_append_right (detection :: earlier) List.mem_cons_self, found⟩
  · rw [detected_concat]
    intro address first first_shown second second_shown
    obtain ⟨first_there, in_first⟩ := List.mem_filter.mp first_shown
    obtain ⟨second_there, in_second⟩ := List.mem_filter.mp second_shown
    have same := eq_of_shared_member lowers (cluster_of_mem_run complete first_there)
      (cluster_of_mem_run complete second_there) (of_decide_eq_true in_first)
      (of_decide_eq_true in_second)
    exact Table.eq_of_key_eq first_there second_there (congrArg SybilCluster.clusterId same)
  · obtain ⟨map, returned, told_iff⟩ := lookup_returned lowers complete
    refine ⟨map, returned, ?_⟩
    rw [detected_concat]
    simp only [told_iff, tells_swarmsOf_iff]
    constructor
    · intro agrees
      rw [List.Nodup, List.pairwise_map]
      refine (clusters_disjoint detection lowers).imp_of_mem ?_
      intro one two one_found two_found apart same
      -- The one row under the shared id would have to be of both.
      have stored {found : SybilCluster} (listed : found ∈ detection.clusters crates) :
          ∃ row ∈ detection.run crates (detected crates before), row.cluster = found := by
        have large := (members_of_mem_clusters lowers listed).2
        obtain ⟨address, inside⟩ :=
          List.exists_mem_of_length_pos (Nat.lt_of_lt_of_le (by decide) large)
        obtain ⟨row, there, in_row, -⟩ := (agrees address (found.clusterId, found.confidence)).mp
          ⟨found, listed, inside, rfl⟩
        exact ⟨row, there, eq_of_shared_member lowers (cluster_of_mem_run complete there) listed in_row
          inside⟩
      obtain ⟨first, first_there, rfl⟩ := stored one_found
      obtain ⟨second, second_there, rfl⟩ := stored two_found
      obtain rfl := Table.eq_of_key_eq first_there second_there same
      have large := (members_of_mem_clusters lowers one_found).2
      obtain ⟨address, inside⟩ :=
        List.exists_mem_of_length_pos (Nat.lt_of_lt_of_le (by decide) large)
      exact apart address inside inside
    · intro distinct address told
      constructor
      · rintro ⟨found, listed, inside, same⟩
        obtain ⟨row, there, rfl⟩ := exists_row_iff.mpr listed
        exact ⟨row, (mem_run_of_distinct complete distinct).mpr there, inside, same⟩
      · rintro ⟨row, there, inside, same⟩
        exact ⟨row.cluster, cluster_of_mem_run complete there, inside, same⟩

/-- Two swarms, born a hundred days apart. -/
def twoSwarms : SwarmDetection where
  passes :=
    let entry (id : String) (created : Int) : EnrichedIndexer :=
      ⟨id, none, none, some created, some 2000000, none, none, none, none, none, none, none⟩
    [{ roster := some [entry "0xA" 0, entry "0xb" 0, entry "0xc" 0, entry "0xd" 8640000,
        entry "0xe" 8640000, entry "0xf" 8640000]
       qos := fun _ => none
       refused := fun _ => false
       joined := fun _ => .asInserted
       clock := fun n => n
       stop := none }]
  profileOrder := .asInserted
  ask := none
  groupOrder := fun _ => .asInserted
  clock := fun n => n
  stop := none

/-- Under one digest for both, some scorecard tells of another swarm than the grades. -/
theorem twoSwarms_told_apart : ∃ map, twoSwarms.returned (.knowing [] []) = some map ∧
    ¬ ∀ address told, map.lookup address = some (address, told) ↔
      Tells (swarmsOf (detected (.knowing [] []) [twoSwarms]) address) address told := by
  obtain ⟨-, -, map, returned, agrees_iff⟩ :=
    swarm_pages_agree (.knowing [] []) (lowersOnce_knowing [] []) [] twoSwarms rfl
  exact ⟨map, returned, fun agrees => absurd (agrees_iff.mp agrees) (by decide +kernel)⟩

end Agreement

end Foghorn.Probe
