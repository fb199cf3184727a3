import Foghorn.Std.Program
import Foghorn.Core.Judged
import Foghorn.Probe.Cluster
import Foghorn.Probe.Executor

/-!
# From raw observations to stored rows

`dedupByAddress` keeps one observation for each address, `computeClusters` clusters what
it kept, and `storeResults` writes probe, observations and clustering one statement at a
time. A failure stops it after some of the statements.
-/

namespace Foghorn.Probe

open Foghorn.Std Foghorn.Core

/-- A real response beats any error, and a genuine error beats a payment refusal. -/
def rank (obs : RawObservation) : Nat :=
  if obs.responseHash.isSome then 2 else if !isPaymentError obs.errorClass then 1 else 0

/-- Observations under distinct addresses. -/
abbrev Deduped := Table RawObservation String RawObservation.indexerAddress

/-- Keep an observation if its address is new or it outranks the one kept so far. -/
def Deduped.keepBest (best : Deduped) (obs : RawObservation) : Deduped :=
  best.upsert obs (fun old => if rank old < rank obs then obs else old) (by
    intro old same
    split
    · rfl
    · exact same)

def dedupByAddress (raw : List RawObservation) : Deduped :=
  raw.foldl Deduped.keepBest Table.empty

def clusterInputs (observations : List RawObservation) : List ClusterInput :=
  observations.map fun obs =>
    ⟨obs.indexerAddress, obs.responseHash, obs.rawResponse, obs.stakeWeight⟩

def RawObservation.toRow (probeId : Uuid) (obs : RawObservation) : ObservationRow where
  probeId := probeId
  indexerAddress := obs.indexerAddress
  responseHash := obs.responseHash
  latencyMs := some obs.latencyMs
  metaBlockNumber := obs.metaBlockNumber
  metaBlockHash := obs.metaBlockHash
  httpStatus := obs.httpStatus
  errorClass := obs.errorClass
  stakeWeight := obs.stakeWeight
  dispatchMode := obs.dispatchMode
  requestCid := obs.requestCid
  responseCid := obs.responseCid
  attestation := obs.attestation

/-- The statements of `store_results`; each skips a row whose key is taken. -/
inductive StoreStatement where
  | insertProbe (row : ProbeRow)
  | insertObservation (row : ObservationRow)
  | insertDivergence (row : DivergenceRow)

def StoreStatement.exec : StoreStatement → Db → Db
  | .insertProbe row, db => { db with probe := db.probe.insertNew row }
  | .insertObservation row, db => { db with observation := db.observation.insertNew row }
  | .insertDivergence row, db => { db with divergence := db.divergence.insertNew row }

def ClusterResult.toRow (probe : ProbeRow) (clusters : ClusterResult) : DivergenceRow where
  probeId := probe.id
  clusterCount := clusters.clusterCount
  diffPatches := clusters.diffPatches
  largestByCountHash := clusters.largestByCountHash
  largestByCountSize := clusters.largestByCountSize
  largestByStakeHash := clusters.largestByStakeHash
  largestByStakeWeight := clusters.largestByStakeWeight
  createdAt := probe.dispatchedAt

/-- Whether the clustering is recorded: at least two observations agreed. -/
def ClusterResult.recorded (clusters : ClusterResult) : Bool :=
  2 ≤ clusters.largestByCountSize && clusters.largestByCountHash ≠ ""

/-- The statements before the clustering is recorded. -/
def storeAnswers (probe : ProbeRow) (observations : List RawObservation) : List StoreStatement :=
  .insertProbe probe :: observations.map fun obs => .insertObservation (obs.toRow probe.id)

def storeResults (probe : ProbeRow) (observations : List RawObservation)
    (clusters : ClusterResult) : List StoreStatement :=
  storeAnswers probe observations ++
    if clusters.recorded then [.insertDivergence (clusters.toRow probe)] else []

/-- One probe from its raw observations to the database; `none` is the panic in the
clustering, before anything is stored. -/
def storeProbe (crates : Crates) (order : ClusterOrder) (db : Db) (probe : ProbeRow)
    (raw : List RawObservation) : Option Db :=
  let deduped := (dedupByAddress raw).rows
  (computeClusters crates order (clusterInputs deduped)).map fun clusters =>
    runAll StoreStatement.exec (storeResults probe deduped clusters) db

/-- A probe id that no stored row carries, as a random one does not. -/
structure FreshProbe (db : Db) (probeId : Uuid) : Prop where
  noProbe : ¬ db.probe.holds probeId
  noObservation : ∀ obs ∈ db.observation, obs.probeId ≠ probeId
  noDivergence : ¬ db.divergence.holds probeId

/-- In the empty database every probe is fresh. -/
theorem freshProbe_empty (probeId : Uuid) : FreshProbe Db.empty probeId where
  noProbe := List.not_mem_nil
  noObservation obs member := absurd member (Table.not_mem_empty obs)
  noDivergence := List.not_mem_nil

section Dedup

/-- The first hashed observation under an address. -/
def answerOf (raw : List RawObservation) (address : String) : Option RawObservation :=
  raw.find? fun obs => obs.indexerAddress = address && obs.responseHash.isSome

private theorem answerOf_concat (raw : List RawObservation) (obs : RawObservation)
    (address : String) :
    answerOf (raw ++ [obs]) address =
      (answerOf raw address).or
        (if obs.indexerAddress = address ∧ obs.responseHash.isSome then some obs else none) := by
  rw [answerOf, List.find?_append]
  by_cases hit : obs.indexerAddress = address ∧ obs.responseHash.isSome
  · simp [answerOf, hit]
  · simp [answerOf, hit]

/-- Ranks go up to 2. -/
theorem rank_le (obs : RawObservation) : rank obs ≤ 2 := by
  unfold rank
  split
  · exact Nat.le_refl _
  · split <;> omega

/-- The highest rank is that of answers with a hash. -/
theorem rank_eq_two_iff (obs : RawObservation) : rank obs = 2 ↔ obs.responseHash.isSome := by
  unfold rank
  split
  · simp [*]
  · split <;> simp [*]

/-- One more observation is kept if it is better than what its address has. -/
theorem dedupByAddress_concat (raw : List RawObservation) (obs : RawObservation) :
    dedupByAddress (raw ++ [obs]) = (dedupByAddress raw).keepBest obs := by
  simp [dedupByAddress, List.foldl_append]

/-- Deduplication keeps an answer of every address that has one. -/
theorem holds_dedupByAddress (raw : List RawObservation) (address : String) :
    (dedupByAddress raw).holds address ↔ address ∈ raw.map RawObservation.indexerAddress := by
  induction raw using List.reverseRecOn with
  | nil => simp [dedupByAddress, Table.holds]
  | append_singleton earlier obs ih =>
    rw [dedupByAddress_concat, Deduped.keepBest, Table.holds_upsert, ih]
    simp

/-- Keeping the better answer changes the entry of its address alone. -/
theorem lookup_keepBest (best : Deduped) (obs : RawObservation) (address : String) :
    (best.keepBest obs).lookup address =
      if address = obs.indexerAddress then
        some (((best.lookup address).map fun old =>
          if rank old < rank obs then obs else old).getD obs)
      else best.lookup address :=
  Table.lookup_upsert

/-- What is kept and hashed under an address is its first hashed observation. -/
theorem lookup_dedupByAddress_hashed (raw : List RawObservation) (address : String) :
    ((dedupByAddress raw).lookup address).filter (fun obs => obs.responseHash.isSome) =
      answerOf raw address := by
  induction raw using List.reverseRecOn with
  | nil => rfl
  | append_singleton earlier obs ih =>
    rw [dedupByAddress_concat, lookup_keepBest, answerOf_concat, ← ih]
    by_cases same : obs.indexerAddress = address
    · subst same
      cases (dedupByAddress earlier).lookup obs.indexerAddress with
      | none => simp [Option.filter]
      | some old =>
        -- A hashed observation is never outranked, an unhashed one is by any hashed one.
        have oldRank := rank_eq_two_iff old
        have newRank := rank_eq_two_iff obs
        have oldMost := rank_le old
        have newMost := rank_le obs
        by_cases oldHashed : old.responseHash.isSome
        · have stays : ¬ rank old < rank obs := by
            rw [oldRank.mpr oldHashed]
            omega
          simp [Option.filter, oldHashed, stays]
        · by_cases newHashed : obs.responseHash.isSome
          · have yields : rank old < rank obs := by
              have : rank old ≠ 2 := fun two => oldHashed (oldRank.mp two)
              rw [newRank.mpr newHashed]
              omega
            simp [Option.filter, oldHashed, newHashed, yields]
          · have unhashed : (if rank old < rank obs then obs else old).responseHash = none := by
              split
              · simpa using newHashed
              · simpa using oldHashed
            simp [Option.filter, oldHashed, newHashed, unhashed]
    · have other : ¬ address = obs.indexerAddress := fun equal => same equal.symm
      simp [same, other]

/-- What is kept and hashed is the first hashed observation of its address. -/
theorem mem_dedupByAddress_hashed (raw : List RawObservation) (obs : RawObservation) :
    obs ∈ dedupByAddress raw ∧ obs.responseHash.isSome ↔
      answerOf raw obs.indexerAddress = some obs := by
  rw [← lookup_dedupByAddress_hashed, Option.filter_eq_some_iff, Table.lookup_eq_some_iff]
  simp

/-- Deduplication keeps one answer of each address. -/
theorem dedupByAddress_nodup (raw : List RawObservation) :
    ((dedupByAddress raw).rows.map RawObservation.indexerAddress).Nodup :=
  (dedupByAddress raw).unique

end Dedup

section Store

variable {db : Db} {probe : ProbeRow} {observations : List RawObservation}
  {clusters : ClusterResult}

/-- No statement before the last writes a clustering. -/
theorem divergence_storeAnswers {program : List StoreStatement}
    (part : program ⊆ storeAnswers probe observations) :
    (runAll StoreStatement.exec program db).divergence = db.divergence := by
  apply runAll_frame Db.divergence
  intro statement member state
  rcases List.mem_cons.mp (part member) with rfl | later
  · rfl
  · obtain ⟨obs, _, rfl⟩ := List.mem_map.mp later
    rfl

/-- Inserting observations under distinct addresses of a probe nobody observed appends
them all. -/
theorem rows_insertObservations (probeId : Uuid)
    (distinct : (observations.map RawObservation.indexerAddress).Nodup)
    (free : ∀ obs ∈ observations, ¬ db.observation.holds (probeId, obs.indexerAddress)) :
    (runAll StoreStatement.exec
        (observations.map fun obs => .insertObservation (obs.toRow probeId)) db).observation.rows =
      db.observation.rows ++ observations.map (RawObservation.toRow probeId) := by
  induction observations generalizing db with
  | nil => simp
  | cons obs rest ih =>
    rw [List.map_cons, List.nodup_cons] at distinct
    have headFree : ¬ db.observation.holds (ObservationRow.key (obs.toRow probeId)) :=
      free obs List.mem_cons_self
    have rows := Table.rows_insertNew headFree
    rw [List.map_cons, runAll_cons, ih distinct.2]
    · simp [StoreStatement.exec, rows]
    · intro later member taken
      rw [StoreStatement.exec, Table.holds, rows, List.map_append, List.mem_append] at taken
      rcases taken with old | new
      · exact free later (List.mem_cons_of_mem _ member) old
      · have same : later.indexerAddress = obs.indexerAddress := by
          simpa [ObservationRow.key, RawObservation.toRow] using new
        exact distinct.1 (same ▸ List.mem_map_of_mem member)

private theorem answers_storeAnswers (fresh : FreshProbe db probe.id)
    (distinct : (observations.map RawObservation.indexerAddress).Nodup) :
    (runAll StoreStatement.exec (storeAnswers probe observations) db).answers probe.id =
      observations.map (RawObservation.toRow probe.id) := by
  have free : ∀ obs ∈ observations,
      ¬ (StoreStatement.exec (.insertProbe probe) db).observation.holds
        (probe.id, obs.indexerAddress) := by
    rintro obs _ taken
    obtain ⟨row, member, same⟩ := Table.holds_iff.mp taken
    exact fresh.noObservation row member (congrArg Prod.fst same)
  rw [Db.answers, storeAnswers, runAll_cons, rows_insertObservations probe.id distinct free,
    List.filter_append]
  have earlier : (StoreStatement.exec (.insertProbe probe) db).observation.rows.filter
      (fun obs => obs.probeId = probe.id) = [] := by
    apply List.filter_eq_nil_iff.mpr
    intro obs member
    simpa using fresh.noObservation obs member
  rw [earlier, List.nil_append]
  apply List.filter_eq_self.mpr
  intro row member
  obtain ⟨obs, _, rfl⟩ := List.mem_map.mp member
  simp [RawObservation.toRow]

/-- A clustering is stored for a fresh probe only by a run that executed everything, and
then beside exactly the observations it was computed from. -/
theorem stored_divergence (fresh : FreshProbe db probe.id) {executed : Nat}
    {d : DivergenceRow}
    (stored : d ∈ (runAll StoreStatement.exec
      ((storeResults probe observations clusters).take executed) db).divergence)
    (ofProbe : d.probeId = probe.id) :
    (storeResults probe observations clusters).take executed =
        storeResults probe observations clusters ∧
      clusters.recorded = true ∧ d = clusters.toRow probe := by
  have absent : d ∉ db.divergence := by
    intro old
    exact fresh.noDivergence (ofProbe ▸ Table.holds_of_mem old)
  by_cases recorded : clusters.recorded
  · simp only [storeResults, recorded, if_true] at stored ⊢
    rcases take_concat_cases (storeAnswers probe observations)
      (.insertDivergence (clusters.toRow probe)) executed with early | complete
    · rw [early, divergence_storeAnswers (List.take_subset _ _)] at stored
      exact absurd stored absent
    · rw [complete, runAll_concat, StoreStatement.exec, Table.mem_insertNew,
        divergence_storeAnswers (List.Subset.refl _)] at stored
      exact ⟨complete, trivial, (stored.resolve_left absent).2⟩
  · simp only [storeResults, recorded, Bool.false_eq_true, if_false, List.append_nil] at stored
    rw [divergence_storeAnswers (List.take_subset _ _)] at stored
    exact absurd stored absent

/-- Beside a clustering or without one, the answers stored for a fresh probe are the
observations. -/
theorem answers_storeResults (fresh : FreshProbe db probe.id)
    (distinct : (observations.map RawObservation.indexerAddress).Nodup) :
    (runAll StoreStatement.exec (storeResults probe observations clusters) db).answers probe.id =
      observations.map (RawObservation.toRow probe.id) := by
  rw [← answers_storeAnswers fresh distinct, storeResults]
  split
  · rw [runAll_concat]
    rfl
  · rw [List.append_nil]

end Store

end Foghorn.Probe
