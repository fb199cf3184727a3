import Foghorn.Probe.Majority

/-!
# The feed of disagreements

The feed names indexers publicly, so it lists actual disagreements only, the newest first. The
probes behind it were stored one after another, each up to whatever statement failed first, by
clusterings that saw the hashes in orders of their own. What it lists is a matter of the answers
alone.
-/

namespace Foghorn.Api

open Foghorn.Std Foghorn.Core Foghorn.Probe

structure FeedParams where
  limit : Option Int
  offset : Option Int
  deploymentId : Option String
  /-- Read by no branch. -/
  indexer : Option String

structure FeedEvent where
  probeId : Uuid
  deploymentId : String
  blockNumber : Int
  blockHash : String
  queryCategory : String
  dispatchedAt : Int
  clusterCount : Nat
  indexerCount : Nat
  diffPatchCount : Nat

/-- `as_array().map(len).unwrap_or(0)`. -/
def diffCount : Json → Nat
  | .array patches => patches.length
  | _ => 0

/-- A clustering of more than one answer, beside its probe. -/
def divergentProbe (db : Db) (deploymentId : Option String) (d : DivergenceRow) :
    List (DivergenceRow × ProbeRow) :=
  if 1 < d.clusterCount then
    ((db.probe.lookup d.probeId).filter fun p =>
      deploymentId.all fun wanted => p.deploymentId = wanted).toList.map (Prod.mk d)
  else []

def divergentProbes (db : Db) (deploymentId : Option String) : List (DivergenceRow × ProbeRow) :=
  db.divergence.rows.flatMap (divergentProbe db deploymentId)

/-- One row of the feed. A clustering is the only one of its probe, so the group it heads is the
observations of that probe. -/
def feedEvent (db : Db) (row : DivergenceRow × ProbeRow) : FeedEvent where
  probeId := row.2.id
  deploymentId := row.2.deploymentId
  blockNumber := row.2.blockNumber
  blockHash := row.2.blockHash
  queryCategory := row.2.queryCategory
  dispatchedAt := row.2.dispatchedAt
  clusterCount := row.1.clusterCount
  indexerCount := (db.answers row.2.id).length
  diffPatchCount := diffCount row.1.diffPatches

/-- Everything there is to page through, the newest first; rows of one time come in any order. -/
def feedEvents (order : IterOrder (DivergenceRow × ProbeRow)) (db : Db)
    (deploymentId : Option String) : List FeedEvent :=
  ((order.arrange (divergentProbes db deploymentId)).mergeSort
    fun left right => right.1.createdAt ≤ left.1.createdAt).map (feedEvent db)

/-- `none` is the error for a negative limit or offset. -/
def feed (order : IterOrder (DivergenceRow × ProbeRow)) (db : Db) (params : FeedParams) :
    Option (List FeedEvent) :=
  let limit := min (params.limit.getD 50) 200
  let offset := params.offset.getD 0
  if limit < 0 ∨ offset < 0 then none
  else some (((feedEvents order db params.deploymentId).drop offset.toNat).take limit.toNat)

/-- `total_divergences` of `stats`. -/
def totalDivergences (db : Db) : Nat :=
  db.divergence.rows.countP fun d => 1 < d.clusterCount

/-- The probes of a deployment whose answers differed, on the page of the deployment. -/
def recentDivergenceRows (order : IterOrder (DivergenceRow × ProbeRow)) (db : Db)
    (deploymentId : String) : List (DivergenceRow × ProbeRow) :=
  ((order.arrange (divergentProbes db (some deploymentId))).mergeSort
    fun left right => right.2.dispatchedAt ≤ left.2.dispatchedAt).take 10

section Attempts

/-- A probe on its way into the database: what was answered, and how far its statements got. A
hash is a digest, so none is empty. -/
structure Attempt (crates : Crates) where
  probe : ProbeRow
  raw : List RawObservation
  hashed : ∀ obs ∈ raw, obs.responseHash ≠ some ""
  storing : Storing crates probe (dedupByAddress raw).rows

/-- The distinct answers of the addresses. -/
def distinctAnswers (raw : List RawObservation) : List String :=
  ((raw.map RawObservation.indexerAddress).dedup.filterMap fun address =>
    (answerOf raw address).bind RawObservation.responseHash).dedup

variable {crates : Crates}

/-- Every statement was executed, two addresses gave one answer, and another address differed. -/
def Attempt.disagreed (attempt : Attempt crates) : Bool :=
  attempt.storing.program.length ≤ attempt.storing.executed &&
    (distinctAnswers attempt.raw).any (fun hash => 2 ≤ (voters attempt.raw hash).length) &&
      1 < (distinctAnswers attempt.raw).length

/-- What the feed says about it. -/
def Attempt.event (attempt : Attempt crates) : FeedEvent where
  probeId := attempt.probe.id
  deploymentId := attempt.probe.deploymentId
  blockNumber := attempt.probe.blockNumber
  blockHash := attempt.probe.blockHash
  queryCategory := attempt.probe.queryCategory
  dispatchedAt := attempt.probe.dispatchedAt
  clusterCount := (distinctAnswers attempt.raw).length
  indexerCount := (attempt.raw.map RawObservation.indexerAddress).dedup.length
  diffPatchCount := diffCount attempt.storing.clusters.diffPatches

def Attempt.store (attempt : Attempt crates) (db : Db) : Db := attempt.storing.result db

/-- What a list of attempts should be published as. -/
def published (attempts : List (Attempt crates)) (deploymentId : Option String) :
    List FeedEvent :=
  (attempts.filter fun attempt => attempt.disagreed &&
    deploymentId.all fun wanted => attempt.probe.deploymentId = wanted).map Attempt.event

end Attempts

section Answers

variable {raw : List RawObservation} {hash : String}

/-- A hash is among the distinct answers when somebody gave it. -/
theorem mem_distinctAnswers : hash ∈ distinctAnswers raw ↔ voters raw hash ≠ [] := by
  rw [distinctAnswers, List.mem_dedup, List.mem_filterMap, voters, Ne, List.filter_eq_nil_iff]
  simp

/-- In every order there is one cluster for each hash. -/
theorem clusterCount_computeClusters {crates : Crates} {order : ClusterOrder}
    {inputs : List ClusterInput} {clusters : ClusterResult}
    (computed : computeClusters crates order inputs = some clusters) :
    clusters.clusterCount = (clustersOf order inputs).length := by
  unfold computeClusters at computed
  dsimp only at computed
  split at computed
  · obtain ⟨_, -, rfl⟩ := Option.map_eq_some_iff.mp computed
    rfl
  · rename_i absent
    obtain rfl := Option.some.inj computed
    cases entries : (clustersOf order inputs).zipIdx with
    | nil =>
      have none_ : clustersOf order inputs = [] := by simpa using entries
      rw [none_]
      rfl
    | cons head tail => exact (absent head tail _ _ entries (by rw [entries]; rfl)).elim

/-- A clustering has one cluster for each distinct answer. -/
theorem clusterCount_eq {crates : Crates} {probe : ProbeRow}
    (storing : Storing crates probe (dedupByAddress raw).rows) :
    storing.clusters.clusterCount = (distinctAnswers raw).length := by
  rw [clusterCount_computeClusters storing.computed, ← List.length_map Cluster.hash]
  have distinct := nodup_clustersOf storing.order (clusterInputs storing.arrangement)
  refine ((List.perm_ext_iff_of_nodup distinct (List.nodup_dedup _)).mpr fun hash => ?_).length_eq
  rw [← distinctAnswers, mem_distinctAnswers, ← List.length_pos_iff, ← votesFor_dedupByAddress,
    ← storing.votesFor_arrangement]
  constructor
  · intro listed
    obtain ⟨cluster, member, rfl⟩ := List.mem_map.mp listed
    exact (mem_clustersOf member).2
  · intro voted
    obtain ⟨cluster, member, rfl⟩ := exists_mem_clustersOf voted
    exact List.mem_map_of_mem member

/-- Of digests, a clustering is recorded when two addresses gave the same one. -/
theorem recorded_iff {crates : Crates} {probe : ProbeRow}
    (hashed : ∀ obs ∈ raw, obs.responseHash ≠ some "")
    (storing : Storing crates probe (dedupByAddress raw).rows) :
    storing.clusters.recorded ↔ ∃ hash ∈ distinctAnswers raw, 2 ≤ (voters raw hash).length := by
  obtain ⟨size, largest⟩ := computeClusters_spec storing.computed
  simp only [storing.votesFor_arrangement, votesFor_dedupByAddress] at size largest
  rw [ClusterResult.recorded, Bool.and_eq_true, decide_eq_true_iff, decide_eq_true_iff]
  constructor
  · rintro ⟨two, -⟩
    rw [size] at two
    refine ⟨_, mem_distinctAnswers.mpr ?_, two⟩
    exact List.ne_nil_of_length_pos (Nat.lt_of_lt_of_le Nat.two_pos two)
  · rintro ⟨hash, -, two⟩
    have most := two.trans (largest hash)
    refine ⟨most, ?_⟩
    intro empty
    rw [size, empty] at most
    obtain ⟨address, voter⟩ := List.exists_mem_of_length_pos (Nat.lt_of_lt_of_le Nat.two_pos most)
    obtain ⟨obs, kept, named, rfl⟩ := mem_voters.mp voter
    have first := (mem_dedupByAddress_hashed raw obs).mp ⟨kept, by rw [named]; rfl⟩
    exact hashed obs (List.mem_of_find?_eq_some first) named

/-- One observation is kept for each address. -/
theorem length_dedupByAddress :
    (dedupByAddress raw).rows.length = (raw.map RawObservation.indexerAddress).dedup.length := by
  rw [← List.length_map RawObservation.indexerAddress]
  refine ((List.perm_ext_iff_of_nodup (dedupByAddress_nodup raw)
    (List.nodup_dedup _)).mpr fun address => ?_).length_eq
  rw [List.mem_dedup]
  exact holds_dedupByAddress raw address

end Answers

section Stored

/-- The probe a statement writes about. -/
def aboutProbe : StoreStatement → Uuid
  | .insertProbe row => row.id
  | .insertObservation row => row.probeId
  | .insertDivergence row => row.probeId

variable {crates : Crates} {attempt : Attempt crates} {db : Db} {id : Uuid}

/-- Every statement of a storing pass is about its own probe. -/
theorem aboutProbe_program {statement : StoreStatement}
    (member : statement ∈ attempt.storing.program) : aboutProbe statement = attempt.probe.id := by
  rw [Storing.program, storeResults, List.mem_append, storeAnswers, List.mem_cons] at member
  rcases member with (rfl | observation) | divergence
  · rfl
  · obtain ⟨obs, -, rfl⟩ := List.mem_map.mp observation
    rfl
  · split at divergence
    · rw [List.mem_singleton.mp divergence]
      rfl
    · exact absurd divergence List.not_mem_nil

/-- What is stored under an id. -/
def storedUnder (db : Db) (id : Uuid) :
    Option ProbeRow × List ObservationRow × Option DivergenceRow :=
  (db.probe.lookup id, db.answers id, db.divergence.lookup id)

private theorem freshProbe_iff : FreshProbe db id ↔ storedUnder db id = (none, [], none) := by
  rw [storedUnder, Prod.mk.injEq, Prod.mk.injEq, ← Table.not_holds_iff_lookup,
    ← Table.not_holds_iff_lookup, Db.answers, List.filter_eq_nil_iff]
  simp only [decide_eq_true_iff]
  constructor
  · intro fresh
    exact ⟨fresh.noProbe, fresh.noObservation, fresh.noDivergence⟩
  · intro free
    exact ⟨free.1, free.2.1, free.2.2⟩

/-- A statement about one probe writes nothing under the id of another. -/
theorem storedUnder_exec {statement : StoreStatement} (other : aboutProbe statement ≠ id)
    (db : Db) : storedUnder (statement.exec db) id = storedUnder db id := by
  cases statement with
  | insertProbe row =>
    have apart : ¬ row.id = id := other
    simp [storedUnder, StoreStatement.exec, Table.lookup_insertNew, apart, Db.answers]
  | insertDivergence row =>
    have apart : ¬ row.probeId = id := other
    simp [storedUnder, StoreStatement.exec, Table.lookup_insertNew, apart, Db.answers]
  | insertObservation row =>
    have apart : ¬ row.probeId = id := other
    by_cases taken : db.observation.holds row.key
    · simp only [StoreStatement.exec, Table.insertNew_of_holds taken]
    · simp [storedUnder, StoreStatement.exec, Table.rows_insertNew taken, apart, Db.answers]

/-- Storing one probe leaves what is stored under another id alone. -/
theorem storedUnder_store (other : attempt.probe.id ≠ id) :
    storedUnder (attempt.store db) id = storedUnder db id := by
  apply runAll_frame fun db => storedUnder db id
  intro statement member
  apply storedUnder_exec
  rw [aboutProbe_program (List.take_subset _ _ member)]
  exact other

/-- A clustering was recorded, and the run got to it. -/
def Attempt.clustered (attempt : Attempt crates) : Bool :=
  attempt.storing.program.length ≤ attempt.storing.executed && attempt.storing.clusters.recorded

private theorem clustered_iff : attempt.clustered ↔
    attempt.storing.Complete ∧ attempt.storing.clusters.recorded := by
  rw [Attempt.clustered, Bool.and_eq_true, decide_eq_true_iff, Storing.Complete,
    List.take_eq_self_iff]

/-- An attempt disagreed when its cluster row is stored and counts more than one answer. -/
theorem disagreed_eq : attempt.disagreed =
    (attempt.clustered && decide (1 < attempt.storing.clusters.clusterCount)) := by
  have recorded := recorded_iff attempt.hashed attempt.storing
  rw [Attempt.disagreed, Attempt.clustered, clusterCount_eq]
  congr 2
  rw [Bool.eq_iff_iff, recorded, List.any_eq_true]
  simp only [decide_eq_true_iff]

/-- The table of clusterings grows by that of a complete run. -/
theorem divergence_store (fresh : FreshProbe db attempt.probe.id) :
    (attempt.store db).divergence.rows = db.divergence.rows ++
      if attempt.clustered then [attempt.storing.clusters.toRow attempt.probe] else [] := by
  by_cases clustered : attempt.clustered
  · obtain ⟨complete, recorded⟩ := clustered_iff.mp clustered
    rw [if_pos clustered, Attempt.store, Storing.result, complete, Storing.program, storeResults,
      if_pos recorded, runAll_concat, StoreStatement.exec,
      divergence_storeAnswers (List.Subset.refl _), Table.rows_insertNew fresh.noDivergence]
  · rw [if_neg clustered, List.append_nil, Attempt.store, Storing.result, Storing.program]
    rw [clustered_iff, Storing.Complete, Storing.program] at clustered
    by_cases recorded : attempt.storing.clusters.recorded
    · -- Without the last statement.
      rw [storeResults, if_pos recorded] at clustered ⊢
      have early := (take_concat_cases _ _ _).resolve_right fun all => clustered ⟨all, recorded⟩
      rw [early, divergence_storeAnswers (List.take_subset _ _)]
    · rw [storeResults, if_neg recorded, List.append_nil,
        divergence_storeAnswers (List.take_subset _ _)]

/-- After the first statement nothing writes a probe. -/
theorem probe_afterInsert {program : List StoreStatement}
    (later : ∀ statement ∈ program, ∀ row, statement ≠ .insertProbe row) :
    (runAll StoreStatement.exec program db).probe = db.probe := by
  apply runAll_frame Db.probe
  intro statement member state
  cases statement with
  | insertProbe row => exact absurd rfl (later _ member row)
  | insertObservation row => rfl
  | insertDivergence row => rfl

/-- A run that got to its end stored the probe and the observations that were kept. -/
theorem storedUnder_complete (fresh : FreshProbe db attempt.probe.id)
    (complete : attempt.storing.Complete) :
    (attempt.store db).probe.lookup attempt.probe.id = some attempt.probe ∧
      ((attempt.store db).answers attempt.probe.id).length =
        (attempt.raw.map RawObservation.indexerAddress).dedup.length := by
  constructor
  · rw [Attempt.store, Storing.result, complete, Storing.program, storeResults, storeAnswers,
      List.cons_append, runAll_cons, probe_afterInsert, StoreStatement.exec,
      Table.lookup_insertNew, Table.not_holds_iff_lookup.mp fresh.noProbe, if_pos rfl]
    · rfl
    · intro statement member row
      rcases List.mem_append.mp member with observation | divergence
      · obtain ⟨obs, -, rfl⟩ := List.mem_map.mp observation
        exact StoreStatement.noConfusion
      · split at divergence
        · rw [List.mem_singleton.mp divergence]
          exact StoreStatement.noConfusion
        · exact absurd divergence List.not_mem_nil
  · rw [Attempt.store, Storing.answers_result complete fresh (dedupByAddress_nodup _),
      List.length_map, attempt.storing.perm.length_eq, length_dedupByAddress]

end Stored

section Feed

/-- An event beside the time the feed sorts by. -/
def stamped (db : Db) (row : DivergenceRow × ProbeRow) : Int × FeedEvent :=
  (row.1.createdAt, feedEvent db row)

variable {crates : Crates} {attempt : Attempt crates} {db db' : Db} {deploymentId : Option String}

/-- What the feed says about a clustering depends on what is stored under its probe. -/
theorem stamped_congr {d : DivergenceRow}
    (same : storedUnder db d.probeId = storedUnder db' d.probeId) :
    (divergentProbe db deploymentId d).map (stamped db) =
      (divergentProbe db' deploymentId d).map (stamped db') := by
  obtain ⟨probe, rest⟩ := Prod.mk.inj same
  obtain ⟨answers, -⟩ := Prod.mk.inj rest
  rw [divergentProbe, divergentProbe, ← probe]
  split
  · rw [List.map_map, List.map_map]
    apply List.map_congr_left
    intro p listed
    have ofProbe : p.id = d.probeId := by
      rw [Option.mem_toList, Option.filter_eq_some_iff] at listed
      exact Table.key_of_lookup listed.1
    simp [stamped, feedEvent, ofProbe, answers]
  · rfl

/-- The event of a clustering that was just stored. -/
theorem stamped_stored (fresh : FreshProbe db attempt.probe.id)
    (complete : attempt.storing.Complete) :
    (divergentProbe (attempt.store db) deploymentId
      (attempt.storing.clusters.toRow attempt.probe)).map (stamped (attempt.store db)) =
        if 1 < attempt.storing.clusters.clusterCount ∧
            deploymentId.all fun wanted => attempt.probe.deploymentId = wanted then
          [(attempt.event.dispatchedAt, attempt.event)]
        else [] := by
  obtain ⟨probe, answers⟩ := storedUnder_complete fresh complete
  have event : stamped (attempt.store db)
      (attempt.storing.clusters.toRow attempt.probe, attempt.probe) =
        (attempt.event.dispatchedAt, attempt.event) := by
    simp only [stamped, feedEvent, Attempt.event, ClusterResult.toRow, answers, clusterCount_eq]
  have ofProbe : (attempt.storing.clusters.toRow attempt.probe).probeId = attempt.probe.id := rfl
  rw [divergentProbe, ofProbe, probe]
  by_cases several : 1 < attempt.storing.clusters.clusterCount
  · rw [if_pos (show 1 < (attempt.storing.clusters.toRow attempt.probe).clusterCount from several)]
    by_cases asked : deploymentId.all fun wanted => attempt.probe.deploymentId = wanted
    · simp [Option.filter, asked, several, event]
    · simp [Option.filter, asked]
  · rw [if_neg (show ¬ 1 < (attempt.storing.clusters.toRow attempt.probe).clusterCount
      from several), if_neg fun both => several both.1]
    rfl

/-- Storing one more probe adds its event, if there is one, to those before. -/
theorem events_store (fresh : FreshProbe db attempt.probe.id) :
    (divergentProbes (attempt.store db) deploymentId).map (stamped (attempt.store db)) =
      (divergentProbes db deploymentId).map (stamped db) ++
        (published [attempt] deploymentId).map fun event => (event.dispatchedAt, event) := by
  rw [divergentProbes, divergence_store fresh, List.flatMap_append, List.map_append]
  congr 1
  · rw [divergentProbes, List.map_flatMap, List.map_flatMap]
    apply List.flatMap_congr
    intro d listed
    apply stamped_congr
    apply storedUnder_store
    intro same
    exact fresh.noDivergence (same ▸ Table.holds_of_mem (Table.mem_rows.mp listed))
  · by_cases clustered : attempt.clustered
    · rw [if_pos clustered, List.flatMap_singleton,
        stamped_stored fresh (clustered_iff.mp clustered).1, published, List.filter_singleton,
        disagreed_eq, clustered, Bool.true_and]
      by_cases several : 1 < attempt.storing.clusters.clusterCount
      · by_cases asked : deploymentId.all fun wanted => attempt.probe.deploymentId = wanted
        · simp [several, asked]
        · simp [several, asked]
      · simp [several]
    · simp [clustered, published, disagreed_eq]

private theorem published_cons (attempt : Attempt crates) (rest : List (Attempt crates)) :
    published (attempt :: rest) deploymentId =
      published [attempt] deploymentId ++ published rest deploymentId := by
  rw [← List.singleton_append, published, List.filter_append, List.map_append]
  rfl

/-- The attempts are about probes of their own. -/
structure Separate (attempts : List (Attempt crates)) (db : Db) : Prop where
  distinct : (attempts.map fun attempt => attempt.probe.id).Nodup
  fresh : ∀ attempt ∈ attempts, FreshProbe db attempt.probe.id

/-- After the first attempt is stored, the remaining ones still have ids of their own. -/
theorem Separate.tail {attempts : List (Attempt crates)}
    (separate : Separate (attempt :: attempts) db) : Separate attempts (attempt.store db) := by
  obtain ⟨distinct, fresh⟩ := separate
  rw [List.map_cons, List.nodup_cons] at distinct
  refine ⟨distinct.2, fun other listed => ?_⟩
  rw [freshProbe_iff, storedUnder_store fun same => distinct.1 (same ▸ List.mem_map_of_mem listed),
    ← freshProbe_iff]
  exact fresh other (List.mem_cons_of_mem _ listed)

/-- The events of a run are those of its attempts, in the order they were stored. -/
theorem events_run {attempts : List (Attempt crates)} (separate : Separate attempts db) :
    (divergentProbes (runAll Attempt.store attempts db) deploymentId).map
        (stamped (runAll Attempt.store attempts db)) =
      (divergentProbes db deploymentId).map (stamped db) ++
        (published attempts deploymentId).map fun event => (event.dispatchedAt, event) := by
  induction attempts generalizing db with
  | nil => simp [published]
  | cons attempt rest ih =>
    rw [runAll_cons, ih separate.tail, events_store (separate.fresh attempt List.mem_cons_self),
      published_cons attempt rest, List.map_append, List.append_assoc]

/-- The total the feed reports grows by one for each disagreement stored. -/
theorem totalDivergences_run {attempts : List (Attempt crates)} (separate : Separate attempts db) :
    totalDivergences (runAll Attempt.store attempts db) =
      totalDivergences db + (published attempts none).length := by
  induction attempts generalizing db with
  | nil => simp [published]
  | cons attempt rest ih =>
    have step : totalDivergences (attempt.store db) =
        totalDivergences db + (published [attempt] none).length := by
      rw [totalDivergences, divergence_store (separate.fresh attempt List.mem_cons_self),
        List.countP_append, published, List.filter_singleton, disagreed_eq]
      by_cases clustered : attempt.clustered
      · by_cases several : 1 < attempt.storing.clusters.clusterCount
        · simp [totalDivergences, ClusterResult.toRow, clustered, several]
        · simp [totalDivergences, ClusterResult.toRow, clustered, several]
      · simp [totalDivergences, clustered]
    rw [runAll_cons, ih separate.tail, step, published_cons attempt rest, List.length_append,
      Nat.add_assoc]

end Feed

section Listing

variable {crates : Crates}

/-- The published events of a run, the newest first. -/
structure IsListing (attempts : List (Attempt crates)) (deploymentId : Option String)
    (listing : List FeedEvent) : Prop where
  complete : listing.Perm (published attempts deploymentId)
  newestFirst : listing.Pairwise fun newer older => older.dispatchedAt ≤ newer.dispatchedAt

/-- The feed pages through a listing, the totals count it, and the page of a deployment begins one
of its own. -/
structure FeedShows (attempts : List (Attempt crates)) (db : Db) : Prop where
  pages : ∀ (order : IterOrder (DivergenceRow × ProbeRow)) (params : FeedParams),
    (∀ limit ∈ params.limit, 0 ≤ limit) → (∀ offset ∈ params.offset, 0 ≤ offset) →
      ∃ listing, IsListing attempts params.deploymentId listing ∧
        feed order db params = some ((listing.drop (params.offset.getD 0).toNat).take
          (min (params.limit.getD 50) 200).toNat)
  total : totalDivergences db = (published attempts none).length
  recent : ∀ (order : IterOrder (DivergenceRow × ProbeRow)) (deploymentId : String),
    ∃ listing, IsListing attempts (some deploymentId) listing ∧
      (recentDivergenceRows order db deploymentId).map (feedEvent db) = listing.take 10

variable {attempts : List (Attempt crates)} {deploymentId : Option String} {db : Db}

/-- A clustering carries the time its probe was dispatched at. -/
theorem createdAt_eq
    (stamps : (divergentProbes db deploymentId).map (stamped db) =
      (published attempts deploymentId).map fun event => (event.dispatchedAt, event))
    {row : DivergenceRow × ProbeRow} (listed : row ∈ divergentProbes db deploymentId) :
    row.1.createdAt = row.2.dispatchedAt := by
  have member : stamped db row ∈ (divergentProbes db deploymentId).map (stamped db) :=
    List.mem_map_of_mem listed
  rw [stamps] at member
  obtain ⟨event, -, same⟩ := List.mem_map.mp member
  obtain ⟨created, rfl⟩ := Prod.mk.inj same
  exact created.symm

/-- Sorted by a time that is the time of dispatch, the divergent probes are a listing. -/
theorem isListing_sorted
    (stamps : (divergentProbes db deploymentId).map (stamped db) =
      (published attempts deploymentId).map fun event => (event.dispatchedAt, event))
    (order : IterOrder (DivergenceRow × ProbeRow)) (time : DivergenceRow × ProbeRow → Int)
    (timed : ∀ row ∈ divergentProbes db deploymentId, time row = row.2.dispatchedAt) :
    IsListing attempts deploymentId (((order.arrange (divergentProbes db deploymentId)).mergeSort
      fun left right => time right ≤ time left).map (feedEvent db)) := by
  have perm := (List.mergeSort_perm (order.arrange (divergentProbes db deploymentId))
    fun left right => time right ≤ time left).trans (order.perm _)
  have events : (divergentProbes db deploymentId).map (feedEvent db) =
      published attempts deploymentId := by
    have seconds := congrArg (List.map Prod.snd) stamps
    simpa [Function.comp_def, stamped] using seconds
  constructor
  · rw [← events]
    exact perm.map _
  · rw [List.pairwise_map]
    have sorted : ((order.arrange (divergentProbes db deploymentId)).mergeSort
        fun left right => time right ≤ time left).Pairwise
          fun newer older => decide (time older ≤ time newer) := by
      refine List.pairwise_mergeSort ?_ ?_ _
      · intro a b c first second
        exact decide_eq_true ((of_decide_eq_true second).trans (of_decide_eq_true first))
      · intro a b
        rw [Bool.or_eq_true, decide_eq_true_iff, decide_eq_true_iff]
        exact le_total _ _
    refine sorted.imp_of_mem fun {newer older} newerIn olderIn le => ?_
    have before := of_decide_eq_true le
    rwa [timed _ (perm.mem_iff.mp newerIn), timed _ (perm.mem_iff.mp olderIn)] at before

/-- Whatever run of probes was stored, each cut off anywhere and clustered in any order, the pages
show those that two addresses agreed on and another contradicted. -/
theorem feed_shows_disagreements (crates : Crates) (attempts : List (Attempt crates))
    (distinct : (attempts.map fun attempt => attempt.probe.id).Nodup) :
    FeedShows attempts (runAll Attempt.store attempts Db.empty) := by
  have separate : Separate attempts Db.empty := ⟨distinct, fun attempt _ => freshProbe_empty _⟩
  have stamps (deploymentId : Option String) :
      (divergentProbes (runAll Attempt.store attempts Db.empty) deploymentId).map
          (stamped (runAll Attempt.store attempts Db.empty)) =
        (published attempts deploymentId).map fun event => (event.dispatchedAt, event) :=
    events_run separate
  refine ⟨fun order params limited offset => ?_, ?_, fun order deploymentId => ?_⟩
  · refine ⟨_, isListing_sorted (stamps params.deploymentId) order (fun row => row.1.createdAt)
      (fun _ => createdAt_eq (stamps params.deploymentId)), ?_⟩
    have nonneg : ¬ (min (params.limit.getD 50) 200 < 0 ∨ params.offset.getD 0 < 0) := by
      have limitNonneg : 0 ≤ params.limit.getD 50 := by
        cases given : params.limit with
        | none => exact Int.le_of_lt (by decide)
        | some limit => exact limited limit given
      have offsetNonneg : 0 ≤ params.offset.getD 0 := by
        cases given : params.offset with
        | none => exact Int.le_refl 0
        | some start => exact offset start given
      omega
    rw [feed, if_neg nonneg]
    rfl
  · rw [totalDivergences_run separate]
    exact Nat.zero_add _
  · exact ⟨_, isListing_sorted (stamps (some deploymentId)) order (fun row => row.2.dispatchedAt)
      fun _ _ => rfl, List.map_take⟩

/-- Two addresses against one, stored to the end. -/
theorem twoAgainstOne_feed : ∃ attempt : Attempt (Crates.knowing [] []),
    attempt.disagreed ∧ FeedShows [attempt] (runAll Attempt.store [attempt] Db.empty) := by
  obtain ⟨stored, run⟩ := Option.isSome_iff_exists.mp (show (storeProbe (Crates.knowing [] [])
    IterOrder.reversed Db.empty sampleProbe twoAgainstOne).isSome = true by decide +kernel)
  obtain ⟨storing, complete, -, -⟩ := storing_of_storeProbe run
  let attempt : Attempt (Crates.knowing [] []) :=
    { probe := sampleProbe
      raw := twoAgainstOne
      hashed := by decide
      storing := storing }
  refine ⟨attempt, ?_, feed_shows_disagreements _ [attempt] (by simp)⟩
  have finished := (List.take_eq_self_iff _).mp complete
  have answers : ((distinctAnswers twoAgainstOne).any
      (fun hash => 2 ≤ (voters twoAgainstOne hash).length) &&
        decide (1 < (distinctAnswers twoAgainstOne).length)) = true := by decide
  rw [Attempt.disagreed, decide_eq_true finished, Bool.true_and]
  exact answers

end Listing

end Foghorn.Api
