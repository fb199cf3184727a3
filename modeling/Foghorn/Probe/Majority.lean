import Foghorn.Probe.Scheduler

/-!
# What a stored clustering proves

A stored clustering is a true count of the stored answers in every order of arrival,
every order of hashing and after every failure, so its faults are minority answers under
a majority (`stored_faults_sound`). What it counts is addresses, though: a majority of
two addresses is a majority of two operators exactly when `SelfMajority` fails.
-/

namespace Foghorn.Probe

open Foghorn.Std Foghorn.Core

/-- One way of storing the observations of a probe: in some order, clustered in some
order, stopped after some number of statements. -/
structure Storing (crates : Crates) (probe : ProbeRow) (observations : List RawObservation) where
  arrangement : List RawObservation
  perm : arrangement.Perm observations
  order : ClusterOrder
  clusters : ClusterResult
  computed : computeClusters crates order (clusterInputs arrangement) = some clusters
  executed : Nat

namespace Storing

variable {crates : Crates} {probe : ProbeRow} {observations : List RawObservation}

def program (storing : Storing crates probe observations) : List StoreStatement :=
  storeResults probe storing.arrangement storing.clusters

/-- The database it leaves behind. -/
def result (storing : Storing crates probe observations) (db : Db) : Db :=
  runAll StoreStatement.exec (storing.program.take storing.executed) db

/-- Nothing failed. -/
def Complete (storing : Storing crates probe observations) : Prop :=
  storing.program.take storing.executed = storing.program

/-- The answers `compute_clusters` saw. -/
def seen (storing : Storing crates probe observations) : Nat :=
  hashedCount (clusterInputs storing.arrangement)

end Storing

/-- The stored answers of a probe that are judged wrong. -/
def faults (db : Db) (probeId : Uuid) : List ObservationRow :=
  (db.answers probeId).filter db.outvoted

/-- A stored clustering counts the stored answers, and only minority answers under a
majority are faults. -/
structure FaultsSound (stored : Db) (d : DivergenceRow) (seen : Nat) : Prop where
  size : d.largestByCountSize = stored.votes d.probeId d.largestByCountHash
  largest : ∀ hash, stored.votes d.probeId hash ≤ d.largestByCountSize
  complete : stored.responders d.probeId = seen
  minority : ∀ obs ∈ faults stored d.probeId, ∀ hash, obs.responseHash = some hash →
    ¬ stored.responders d.probeId < 2 * stored.votes d.probeId hash
  majority : faults stored d.probeId ≠ [] →
    ∃ hash, stored.responders d.probeId < 2 * stored.votes d.probeId hash

section Counts

variable {db : Db} {probe : ProbeRow} {observations : List RawObservation}

private theorem votesFor_clusterInputs (observations : List RawObservation) (hash : String) :
    votesFor (clusterInputs observations) hash =
      observations.countP fun obs => obs.responseHash = some hash := by
  simp [votesFor, clusterInputs, List.countP_map, Function.comp_def]

private theorem hashedCount_clusterInputs (observations : List RawObservation) :
    hashedCount (clusterInputs observations) =
      observations.countP fun obs => obs.responseHash.isSome := by
  simp [hashedCount, clusterInputs, List.countP_map, Function.comp_def]

private theorem votes_of_answers (stored : db.answers probe.id =
    observations.map (RawObservation.toRow probe.id)) (hash : String) :
    db.votes probe.id hash = votesFor (clusterInputs observations) hash := by
  rw [Db.votes, stored, votesFor_clusterInputs, List.countP_map]
  rfl

private theorem responders_of_answers (stored : db.answers probe.id =
    observations.map (RawObservation.toRow probe.id)) :
    db.responders probe.id = hashedCount (clusterInputs observations) := by
  rw [Db.responders, stored, hashedCount_clusterInputs, List.countP_map]
  rfl

end Counts

section Sound

variable {crates : Crates} {db : Db} {probe : ProbeRow} {observations : List RawObservation}

/-- However the observations are arranged, no indexer is stored twice. -/
theorem Storing.distinct (storing : Storing crates probe observations)
    (distinct : (observations.map RawObservation.indexerAddress).Nodup) :
    (storing.arrangement.map RawObservation.indexerAddress).Nodup :=
  ((storing.perm.map RawObservation.indexerAddress).nodup_iff).mpr distinct

/-- A complete storing leaves one row for each observation, as arranged. -/
theorem Storing.answers_result {storing : Storing crates probe observations}
    (complete : storing.Complete) (fresh : FreshProbe db probe.id)
    (distinct : (observations.map RawObservation.indexerAddress).Nodup) :
    (storing.result db).answers probe.id =
      storing.arrangement.map (RawObservation.toRow probe.id) := by
  rw [Storing.result, complete, Storing.program]
  exact answers_storeResults fresh (storing.distinct distinct)

/-- The order of the observations does not change how they vote. -/
theorem Storing.votesFor_arrangement (storing : Storing crates probe observations)
    (hash : String) :
    votesFor (clusterInputs storing.arrangement) hash = votesFor (clusterInputs observations) hash :=
  (storing.perm.map _).countP_eq _

private theorem Storing.seen_eq (storing : Storing crates probe observations) :
    storing.seen = hashedCount (clusterInputs observations) :=
  (storing.perm.map _).countP_eq _

/-- The clustering a complete run stores. -/
theorem Storing.mem_divergence_iff {storing : Storing crates probe observations}
    (complete : storing.Complete) (fresh : FreshProbe db probe.id) {d : DivergenceRow}
    (ofProbe : d.probeId = probe.id) :
    d ∈ (storing.result db).divergence ↔
      storing.clusters.recorded ∧ d = storing.clusters.toRow probe := by
  constructor
  · intro stored
    exact (stored_divergence fresh stored ofProbe).2
  · rintro ⟨recorded, rfl⟩
    rw [result, complete, program, storeResults, if_pos recorded, runAll_concat,
      StoreStatement.exec, Table.mem_insertNew, divergence_storeAnswers (List.Subset.refl _)]
    exact Or.inr ⟨fresh.noDivergence, rfl⟩

/-- After a complete run, an answer is a fault exactly when the observations, in whatever
order, hold a recorded majority for another hash. -/
theorem Storing.mem_faults_iff {storing : Storing crates probe observations}
    (complete : storing.Complete) (fresh : FreshProbe db probe.id)
    (distinct : (observations.map RawObservation.indexerAddress).Nodup) {obs : ObservationRow} :
    obs ∈ faults (storing.result db) probe.id ↔
      obs ∈ observations.map (RawObservation.toRow probe.id) ∧
        ∃ winner hash, winner ≠ "" ∧ 2 ≤ votesFor (clusterInputs observations) winner ∧
          hashedCount (clusterInputs observations) <
            2 * votesFor (clusterInputs observations) winner ∧
          obs.responseHash = some hash ∧ hash ≠ winner := by
  have answers := answers_result complete fresh distinct
  obtain ⟨size, largest⟩ := computeClusters_spec storing.computed
  have responders : (storing.result db).responders probe.id =
      hashedCount (clusterInputs observations) :=
    (responders_of_answers answers).trans storing.seen_eq
  rw [faults, List.mem_filter, answers, (storing.perm.map _).mem_iff]
  refine and_congr_right fun member => ?_
  have ofProbe : obs.probeId = probe.id := by
    obtain ⟨raw, _, rfl⟩ := List.mem_map.mp member
    rfl
  rw [Db.outvoted_iff, ofProbe, responders]
  constructor
  · rintro ⟨d, stored, same, hash, hashed, differs, majority⟩
    obtain ⟨recorded, rfl⟩ := (mem_divergence_iff complete fresh same).mp stored
    simp only [ClusterResult.recorded, Bool.and_eq_true, decide_eq_true_eq] at recorded
    simp only [ClusterResult.toRow, size, storing.votesFor_arrangement] at majority differs
    rw [size, storing.votesFor_arrangement] at recorded
    exact ⟨_, hash, recorded.2, recorded.1, by omega, hashed, differs⟩
  · rintro ⟨winner, hash, named, two, majority, hashed, differs⟩
    -- A majority is unique, so every order reports it.
    have reported : storing.clusters.largestByCountHash = winner := by
      have most := largest winner
      rw [size, storing.votesFor_arrangement, storing.votesFor_arrangement] at most
      exact majority_votes_unique (by omega) majority
    have sizeEq : storing.clusters.largestByCountSize =
        votesFor (clusterInputs observations) winner := by
      rw [size, reported, storing.votesFor_arrangement]
    refine ⟨storing.clusters.toRow probe, (mem_divergence_iff complete fresh rfl).mpr ⟨?_, rfl⟩,
      rfl, hash, hashed, ?_, ?_⟩
    · simp [ClusterResult.recorded, sizeEq, reported, two, named]
    · simpa [ClusterResult.toRow, reported] using differs
    · simp only [ClusterResult.toRow, sizeEq]
      omega

/-- A stored clustering is sound, and its faults are those of every complete run. -/
theorem stored_faults_sound (fresh : FreshProbe db probe.id)
    (distinct : (observations.map RawObservation.indexerAddress).Nodup)
    (storing : Storing crates probe observations) (d : DivergenceRow)
    (stored : d ∈ (storing.result db).divergence) (ofProbe : d.probeId = probe.id) :
    FaultsSound (storing.result db) d storing.seen ∧
      storing.Complete ∧
      ∀ other : Storing crates probe observations, other.Complete →
        ∀ obs, obs ∈ faults (storing.result db) probe.id ↔ obs ∈ faults (other.result db) probe.id := by
  obtain ⟨complete, recorded, rfl⟩ := stored_divergence fresh stored ofProbe
  have answers := Storing.answers_result complete fresh distinct
  obtain ⟨size, largest⟩ := computeClusters_spec storing.computed
  have responders := responders_of_answers answers
  have votes := votes_of_answers answers
  refine ⟨⟨?_, ?_, responders, ?_, ?_⟩, complete, ?_⟩
  · exact size.trans (votes _).symm
  · exact fun hash => (votes hash).trans_le (largest hash)
  · intro obs fault hash hashed shared
    obtain ⟨_, winner, other, _, _, majority, hashed', differs⟩ :=
      (Storing.mem_faults_iff complete fresh distinct).mp fault
    obtain rfl := Option.some.inj (hashed.symm.trans hashed')
    apply differs
    rw [← storing.seen_eq, ← storing.votesFor_arrangement] at majority
    refine majority_votes_unique ?_ majority
    exact (responders.symm.trans_lt shared).trans_eq (congrArg (2 * ·) (votes hash))
  · intro nonempty
    obtain ⟨obs, fault⟩ := List.exists_mem_of_ne_nil _ nonempty
    obtain ⟨_, winner, _, _, _, majority, _⟩ :=
      (Storing.mem_faults_iff complete fresh distinct).mp fault
    rw [← storing.seen_eq, ← storing.votesFor_arrangement] at majority
    exact ⟨winner, responders.trans_lt (majority.trans_eq (congrArg (2 * ·) (votes winner).symm))⟩
  · intro other otherComplete obs
    rw [Storing.mem_faults_iff complete fresh distinct,
      Storing.mem_faults_iff otherComplete fresh distinct]

end Sound

section Identities

/-- The addresses whose first hashed observation carries a hash. -/
def voters (raw : List RawObservation) (hash : String) : List String :=
  (raw.map RawObservation.indexerAddress).dedup.filter fun address =>
    (answerOf raw address).bind RawObservation.responseHash = some hash

/-- The addresses with a hashed observation. -/
def answering (raw : List RawObservation) : List String :=
  (raw.map RawObservation.indexerAddress).dedup.filter fun address =>
    (answerOf raw address).isSome

/-- One operator behind a recorded majority: at least two addresses, more than half of
those that answered, give one hash, and all of them resolve to the same indexer. -/
def SelfMajority (known : AllocationMap) (raw : List RawObservation) : Prop :=
  ∃ hash, hash ≠ "" ∧ 2 ≤ (voters raw hash).length ∧
    (answering raw).length < 2 * (voters raw hash).length ∧
    ∃ who, ∀ address ∈ voters raw hash, known.identity address = who

/-- A stored majority is shared by two answers of different identity. -/
def MajorityOfTwo (known : AllocationMap) (stored : Db) (probeId : Uuid) : Prop :=
  ∀ d ∈ stored.divergence, d.probeId = probeId →
    stored.responders probeId < d.largestByCountSize * 2 →
    ∃ first ∈ stored.answers probeId, ∃ second ∈ stored.answers probeId,
      first.responseHash = some d.largestByCountHash ∧
      second.responseHash = some d.largestByCountHash ∧
      known.identity first.indexerAddress ≠ known.identity second.indexerAddress

/-- An address votes for a hash when its deduplicated answer has it. -/
theorem mem_voters {raw : List RawObservation} {hash address : String} :
    address ∈ voters raw hash ↔
      ∃ obs ∈ dedupByAddress raw, obs.responseHash = some hash ∧ obs.indexerAddress = address := by
  rw [voters, List.mem_filter, List.mem_dedup, ← holds_dedupByAddress]
  constructor
  · rintro ⟨_, voted⟩
    obtain ⟨obs, first, hashed⟩ := Option.bind_eq_some_iff.mp (of_decide_eq_true voted)
    have kept := lookup_dedupByAddress_hashed raw address
    rw [first, Option.filter_eq_some_iff, Table.lookup_eq_some_iff] at kept
    exact ⟨obs, kept.1.1, hashed, kept.1.2⟩
  · rintro ⟨obs, member, hashed, rfl⟩
    have first := (mem_dedupByAddress_hashed raw obs).mp ⟨member, by simp [hashed]⟩
    exact ⟨Table.holds_of_mem member, by simp [first, hashed]⟩

private theorem mem_answering {raw : List RawObservation} {address : String} :
    address ∈ answering raw ↔
      ∃ obs ∈ dedupByAddress raw, obs.responseHash.isSome ∧ obs.indexerAddress = address := by
  rw [answering, List.mem_filter, List.mem_dedup, ← holds_dedupByAddress]
  constructor
  · rintro ⟨_, answered⟩
    obtain ⟨obs, first⟩ := Option.isSome_iff_exists.mp answered
    have kept := lookup_dedupByAddress_hashed raw address
    rw [first, Option.filter_eq_some_iff, Table.lookup_eq_some_iff] at kept
    exact ⟨obs, kept.1.1, kept.2, kept.1.2⟩
  · rintro ⟨obs, member, hashed, rfl⟩
    have first := (mem_dedupByAddress_hashed raw obs).mp ⟨member, hashed⟩
    exact ⟨Table.holds_of_mem member, by simp [first]⟩

/-- Counting kept observations is counting their addresses. -/
theorem countP_dedupByAddress {raw : List RawObservation} {counted : RawObservation → Bool}
    {addresses : List String} (distinct : addresses.Nodup)
    (same : ∀ address, address ∈ addresses ↔
      ∃ obs ∈ dedupByAddress raw, counted obs ∧ obs.indexerAddress = address) :
    (dedupByAddress raw).rows.countP counted = addresses.length := by
  have keptDistinct : (((dedupByAddress raw).rows.filter counted).map
      RawObservation.indexerAddress).Nodup :=
    (dedupByAddress_nodup raw).sublist (List.filter_sublist.map _)
  have perm : (((dedupByAddress raw).rows.filter counted).map RawObservation.indexerAddress).Perm
      addresses := by
    rw [List.perm_ext_iff_of_nodup keptDistinct distinct]
    intro address
    simp [same, ← Table.mem_rows, and_assoc]
  rw [List.countP_eq_length_filter, ← perm.length_eq, List.length_map]

/-- The votes counted over the deduplicated rows are the addresses behind a hash. -/
theorem votesFor_dedupByAddress (raw : List RawObservation) (hash : String) :
    votesFor (clusterInputs (dedupByAddress raw).rows) hash = (voters raw hash).length := by
  have distinct : (voters raw hash).Nodup := (List.nodup_dedup _).filter _
  rw [votesFor_clusterInputs]
  exact countP_dedupByAddress distinct fun address => by simp [mem_voters]

private theorem hashedCount_dedupByAddress (raw : List RawObservation) :
    hashedCount (clusterInputs (dedupByAddress raw).rows) = (answering raw).length := by
  have distinct : (answering raw).Nodup := (List.nodup_dedup _).filter _
  rw [hashedCount_clusterInputs]
  exact countP_dedupByAddress distinct fun address => by simp [mem_answering]

/-- Storing a probe is one complete way of storing what was kept of it. -/
theorem storing_of_storeProbe {crates : Crates} {order : ClusterOrder} {db stored : Db}
    {probe : ProbeRow} {raw : List RawObservation}
    (run : storeProbe crates order db probe raw = some stored) :
    ∃ storing : Storing crates probe (dedupByAddress raw).rows,
      storing.Complete ∧ storing.arrangement = (dedupByAddress raw).rows ∧
        storing.result db = stored := by
  obtain ⟨clusters, computed, rfl⟩ := Option.map_eq_some_iff.mp run
  let storing : Storing crates probe (dedupByAddress raw).rows :=
    { arrangement := (dedupByAddress raw).rows
      perm := List.Perm.refl _
      order := order
      clusters := clusters
      computed := computed
      executed := (storeResults probe (dedupByAddress raw).rows clusters).length }
  have complete : storing.Complete := List.take_length
  exact ⟨storing, complete, rfl, by rw [Storing.result, complete]; rfl⟩

/-- The stored answers that carry a hash are those of its voters. -/
theorem exists_answer_iff_voter {stored : Db} {probe : ProbeRow} {raw : List RawObservation}
    (answers : stored.answers probe.id =
      (dedupByAddress raw).rows.map (RawObservation.toRow probe.id)) {hash address : String} :
    (∃ obs ∈ stored.answers probe.id,
      obs.responseHash = some hash ∧ obs.indexerAddress = address) ↔
        address ∈ voters raw hash := by
  rw [answers, mem_voters]
  constructor
  · rintro ⟨_, member, hashed, rfl⟩
    obtain ⟨obs, kept, rfl⟩ := List.mem_map.mp member
    exact ⟨obs, kept, hashed, rfl⟩
  · rintro ⟨obs, kept, hashed, rfl⟩
    exact ⟨_, List.mem_map_of_mem kept, hashed, rfl⟩

section Stored

variable {crates : Crates} {order : ClusterOrder} {db stored : Db} {probe : ProbeRow}
  {raw : List RawObservation} {known : AllocationMap}

/-- The majority of one operator is what every order reports, so it is stored. -/
theorem not_majorityOfTwo_of_selfMajority (fresh : FreshProbe db probe.id)
    (run : storeProbe crates order db probe raw = some stored) (alone : SelfMajority known raw) :
    ¬ MajorityOfTwo known stored probe.id := by
  intro shared
  obtain ⟨storing, complete, arranged, rfl⟩ := storing_of_storeProbe run
  obtain ⟨hash, named, two, majority, who, same⟩ := alone
  have answers := Storing.answers_result complete fresh (dedupByAddress_nodup raw)
  obtain ⟨size, largest⟩ := computeClusters_spec storing.computed
  have responders := responders_of_answers answers
  rw [arranged] at answers size largest responders
  have most := largest hash
  rw [← votesFor_dedupByAddress, ← hashedCount_dedupByAddress] at majority
  have reported : storing.clusters.largestByCountHash = hash :=
    majority_votes_unique (by omega) majority
  rw [reported, votesFor_dedupByAddress] at size
  rw [votesFor_dedupByAddress] at majority
  have recorded : storing.clusters.recorded := by
    simp [ClusterResult.recorded, size, reported, two, named]
  have row : storing.clusters.toRow probe ∈ (storing.result db).divergence :=
    (Storing.mem_divergence_iff complete fresh rfl).mpr ⟨recorded, rfl⟩
  have overHalf : (storing.result db).responders probe.id <
      (storing.clusters.toRow probe).largestByCountSize * 2 := by
    simp only [responders, ClusterResult.toRow, size]
    omega
  obtain ⟨first, firstIn, second, secondIn, firstHash, secondHash, apart⟩ :=
    shared _ row rfl overHalf
  simp only [ClusterResult.toRow, reported] at firstHash secondHash
  apply apart
  rw [same _ ((exists_answer_iff_voter answers).mp ⟨first, firstIn, firstHash, rfl⟩),
    same _ ((exists_answer_iff_voter answers).mp ⟨second, secondIn, secondHash, rfl⟩)]

/-- A stored majority whose voters are all one operator is a majority of its own. -/
theorem majorityOfTwo_of_not_selfMajority (fresh : FreshProbe db probe.id)
    (run : storeProbe crates order db probe raw = some stored)
    (notAlone : ¬ SelfMajority known raw) : MajorityOfTwo known stored probe.id := by
  obtain ⟨storing, complete, arranged, rfl⟩ := storing_of_storeProbe run
  have answers := Storing.answers_result complete fresh (dedupByAddress_nodup raw)
  obtain ⟨size, _⟩ := computeClusters_spec storing.computed
  have responders := responders_of_answers answers
  rw [arranged] at answers size responders
  rw [hashedCount_dedupByAddress] at responders
  rw [votesFor_dedupByAddress] at size
  intro d row ofProbe majority
  obtain ⟨recorded, rfl⟩ := (Storing.mem_divergence_iff complete fresh ofProbe).mp row
  simp only [ClusterResult.recorded, Bool.and_eq_true, decide_eq_true_eq] at recorded
  simp only [ClusterResult.toRow, responders] at majority ⊢
  rw [size] at recorded majority
  by_contra noneApart
  apply notAlone
  obtain ⟨address, member⟩ := List.exists_mem_of_ne_nil
    (voters raw storing.clusters.largestByCountHash) (List.ne_nil_of_length_pos (by omega))
  refine ⟨_, recorded.2, recorded.1, by omega, known.identity address, ?_⟩
  intro other otherMember
  by_contra apart
  obtain ⟨first, firstIn, firstHash, rfl⟩ := (exists_answer_iff_voter answers).mpr otherMember
  obtain ⟨second, secondIn, secondHash, rfl⟩ := (exists_answer_iff_voter answers).mpr member
  exact noneApart ⟨first, firstIn, second, secondIn, firstHash, secondHash, apart⟩

end Stored

/-- A stored majority is shared by two operators exactly when no operator is a majority of
its own. -/
theorem majorityOfTwo_iff (crates : Crates) (order : ClusterOrder) (db : Db) (probe : ProbeRow)
    (raw : List RawObservation) (known : AllocationMap) (fresh : FreshProbe db probe.id)
    (stored : Db) (run : storeProbe crates order db probe raw = some stored) :
    MajorityOfTwo known stored probe.id ↔ ¬ SelfMajority known raw :=
  ⟨fun shared alone => not_majorityOfTwo_of_selfMajority fresh run alone shared,
    majorityOfTwo_of_not_selfMajority fresh run⟩

end Identities

section Samples

/-- A clean answer with a hash. -/
def sampleAnswer (address hash : String) (mode : DispatchMode) : RawObservation where
  indexerAddress := address
  responseHash := some hash
  rawResponse := none
  latencyMs := 10
  metaBlockNumber := none
  metaBlockHash := none
  httpStatus := some 200
  errorClass := none
  stakeWeight := .exact 1
  requestCid := none
  responseCid := none
  attestation := none
  dispatchMode := mode

def sampleProbe : ProbeRow where
  id := 1
  deploymentId := "Qm"
  blockHash := "0x00"
  blockNumber := 7
  queryHash := "q"
  queryCategory := "Q_byid"
  queryText := ""
  dispatchedAt := 0

/-- One operator paid directly and reached again through the gateway under its signing key. -/
def paidAndRouted : List RawObservation :=
  [sampleAnswer "0xindexer" "hash" .paid, sampleAnswer "0xkey" "hash" .gateway]

/-- The signing key is known to be that operator's. -/
def keyIsIndexers : AllocationMap :=
  Table.empty.insertNew ⟨"0xkey", some "0xindexer", none, 0⟩

private theorem paidAndRouted_selfMajority : SelfMajority keyIsIndexers paidAndRouted :=
  ⟨"hash", by decide, by decide, by decide, "0xindexer", by decide⟩

/-- Everything that is stored of it. -/
def paidAndRoutedStored : Option Db :=
  storeProbe (Crates.knowing [] []) IterOrder.asInserted Db.empty sampleProbe paidAndRouted

/-- The indexer asked by key and by gateway is stored as a majority with nobody beside it. -/
theorem paidAndRouted_alone :
    ∃ stored, paidAndRoutedStored = some stored ∧
      ¬ MajorityOfTwo keyIsIndexers stored sampleProbe.id := by
  obtain ⟨stored, run⟩ := Option.isSome_iff_exists.mp
    (show paidAndRoutedStored.isSome = true by decide)
  exact ⟨stored, run, fun shared => (majorityOfTwo_iff _ _ _ _ _ _ (freshProbe_empty _) _ run).mp
    shared paidAndRouted_selfMajority⟩

/-- A stored majority can be one indexer under two addresses. -/
theorem own_majority_refutes :
    ¬ ∀ (crates : Crates) (order : ClusterOrder) (db : Db) (probe : ProbeRow)
      (raw : List RawObservation) (known : AllocationMap) (_ : FreshProbe db probe.id)
      (stored : Db) (_ : storeProbe crates order db probe raw = some stored),
      MajorityOfTwo known stored probe.id := by
  intro always
  obtain ⟨stored, run⟩ := Option.isSome_iff_exists.mp
    (show paidAndRoutedStored.isSome = true by decide)
  exact not_majorityOfTwo_of_selfMajority (freshProbe_empty _) run paidAndRouted_selfMajority
    (always _ _ _ _ _ _ (freshProbe_empty _) _ run)

/-- Two indexers against one. -/
def twoAgainstOne : List RawObservation :=
  [sampleAnswer "0xa" "right" .paid, sampleAnswer "0xb" "wrong" .paid,
    sampleAnswer "0xc" "right" .paid]

/-- Stored in order of arrival, hashed in the reverse of it, to the last of five statements. -/
def twoAgainstOneStoring (clusters : ClusterResult)
    (computed : computeClusters (Crates.knowing [] []) IterOrder.reversed
      (clusterInputs twoAgainstOne) = some clusters) :
    Storing (Crates.knowing [] []) sampleProbe twoAgainstOne :=
  ⟨twoAgainstOne, List.Perm.refl _, IterOrder.reversed, clusters, computed, 5⟩

/-- Two answers against one are stored as a majority, with sound faults. -/
theorem twoAgainstOne_sound :
    ∃ (storing : Storing (Crates.knowing [] []) sampleProbe twoAgainstOne) (d : DivergenceRow),
      d ∈ (storing.result Db.empty).divergence ∧
      FaultsSound (storing.result Db.empty) d storing.seen := by
  have shape : (computeClusters (Crates.knowing [] []) IterOrder.reversed
      (clusterInputs twoAgainstOne)).map ClusterResult.recorded = some true := by
    decide +kernel
  obtain ⟨clusters, computed, recorded⟩ := Option.map_eq_some_iff.mp shape
  let storing := twoAgainstOneStoring clusters computed
  have complete : storing.Complete := by
    apply List.take_of_length_le
    simp [storing, Storing.program, twoAgainstOneStoring, storeResults, storeAnswers, recorded,
      twoAgainstOne]
  have stored : clusters.toRow sampleProbe ∈ (storing.result Db.empty).divergence :=
    (Storing.mem_divergence_iff complete (freshProbe_empty _) rfl).mpr ⟨recorded, rfl⟩
  exact ⟨storing, _, stored,
    (stored_faults_sound (freshProbe_empty _) (by decide) storing _ stored rfl).1⟩

end Samples

end Foghorn.Probe
