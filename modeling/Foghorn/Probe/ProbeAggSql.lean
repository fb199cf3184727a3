import Foghorn.Core.JudgedSql
import Foghorn.Probe.ProbeAgg

/-!
# Probe outcomes as the scorer's query joins them

The scorer has a copy of its own of the shared fragment: the responders are counted over all
observations, and the flag is looked up by `NOT IN`. `get_loadProbeAggSql` says that it counts
what `loadProbeAgg` counts.
-/

namespace Foghorn.Probe

open Foghorn.Std Foghorn.Core Truth

/-- A row that is aggregated, with whether the filter of `faults` takes it. -/
structure AggInput where
  addr : String
  probeId : Uuid
  errorClass : Option String
  responseHash : Option String
  fault : Bool

/-- The filter of `faults`. -/
def countsAsFault (db : Db) (o : ObservationRow) (p : ProbeRow) (d : Option DivergenceRow)
    (r : Option (Uuid × Nat)) : Truth :=
  ((((isNotNull (d.map DivergenceRow.probeId)).and (isNotNull o.responseHash)).and
    (differs o.responseHash (d.map DivergenceRow.largestByCountHash))).and
      (compare (fun size n => n < size * 2) (d.map DivergenceRow.largestByCountSize)
        (r.map Prod.snd))).and
          (isNotIn (some p.deploymentId)
            (db.nondeterministic.rows.map fun nd => some nd.deploymentId))

/-- The rows of the query before they are grouped. -/
def aggInputs (since : Int) (db : Db) : List AggInput :=
  db.observation.rows.flatMap fun o =>
  (joined db.probe.rows fun p => equal (some p.id) (some o.probeId)).flatMap fun p =>
  (leftJoined db.divergence.rows fun d => equal (some d.probeId) (some o.probeId)).flatMap fun d =>
  (leftJoined (countResponders db.observation.rows) fun r =>
    equal (some r.1) (some o.probeId)).flatMap fun r =>
  (mapEntries db o).flatMap fun am =>
    if (Truth.and (some (since < p.dispatchedAt)) (isJudged o am)).holds then
      [{ addr := (am.bind AllocationMapRow.indexerAddress).getD o.indexerAddress
         probeId := o.probeId
         errorClass := o.errorClass
         responseHash := o.responseHash
         fault := (countsAsFault db o p d r).holds }]
    else []

def aggregateSql (rows : List AggInput) : ProbeAgg where
  probesAnswered := countDistinct AggInput.probeId (fun row => row.responseHash.isSome) rows
  faults := countDistinct AggInput.probeId AggInput.fault rows
  errors := rows.countP fun row => row.errorClass.isSome || row.responseHash.isNone
  total := rows.length

/-- `load_probe_agg`; `order` is the order in which the groups come. -/
def loadProbeAggSql (crates : Crates) (order : IterOrder (String × ProbeAgg)) (since : Int)
    (db : Db) : AggMap :=
  mapOfPairs ((order.arrange ((groupBy AggInput.addr (aggInputs since db)).map fun group =>
    (group.1, aggregateSql group.2))).map fun row => (crates.lowercase row.1, row.2))

section Rows

variable {since : Int} {db : Db}

private theorem notIn_flagged (deployment : String) :
    (isNotIn (some deployment) (db.nondeterministic.rows.map fun nd => some nd.deploymentId)).holds =
      !db.flagged deployment := by
  have present : (db.nondeterministic.rows.map fun nd => some nd.deploymentId) =
      (db.nondeterministic.rows.map NondeterministicRow.deploymentId).map some := by
    rw [List.map_map]
    rfl
  rw [present, isNotIn_some, holds_some, decide_not]
  rfl

/-- The query counts an answer as a fault exactly when the model does. -/
theorem holds_countsAsFault (o : ObservationRow) (p : ProbeRow) :
    (countsAsFault db o p (db.divergence.lookup o.probeId)
      (some (o.probeId, db.responders o.probeId))).holds = isFault db (o, p) := by
  rw [countsAsFault, holds_and, notIn_flagged, isFault]
  congr 1
  unfold Db.outvoted
  cases db.divergence.lookup o.probeId with
  | none => simp [differs]
  | some d => cases o.responseHash <;> simp [differs]

/-- What is aggregated of an answer. -/
def aggInput (db : Db) (evidence : Evidence) : AggInput where
  addr := whose db evidence
  probeId := evidence.1.probeId
  errorClass := evidence.1.errorClass
  responseHash := evidence.1.responseHash
  fault := isFault db evidence

/-- The query aggregates the evidence. -/
theorem aggInputs_eq : aggInputs since db = (evidenceSince since db).map (aggInput db) := by
  rw [aggInputs, evidenceSince, List.map_filterMap, List.filterMap_eq_flatMap_toList]
  refine List.flatMap_congr fun o stored => ?_
  rw [joined_key]
  cases probed : db.probe.lookup o.probeId with
  | none => rfl
  | some p =>
    have responders : leftJoined (countResponders db.observation.rows) (fun r =>
        equal (some r.1) (some o.probeId)) = [some (o.probeId, db.responders o.probeId)] :=
      leftJoined_countResponders stored
    simp only [Option.toList_some, List.flatMap_singleton, leftJoined_key, responders, mapEntries_eq,
      holds_and, holds_isJudged, holds_some, bind_filter_isSome, holds_countsAsFault,
      Option.bind_some]
    by_cases judged : since < p.dispatchedAt ∧ db.isEvidence o = true
    · simp [judged]
      rfl
    · simp [judged]

/-- The query's aggregate over the joined rows is the aggregate over the evidence. -/
theorem aggregateSql_map (evidence : List Evidence) :
    aggregateSql (evidence.map (aggInput db)) = aggregate db evidence := by
  unfold aggregateSql aggregate
  rw [countDistinct_map, countDistinct_map, List.countP_map, List.length_map]
  rfl

end Rows

/-- The addresses of the observations and of the map are in lower case. -/
structure LowerCase (crates : Crates) (db : Db) : Prop where
  observed : ∀ o ∈ db.observation, crates.lowercase o.indexerAddress = o.indexerAddress
  mapped : ∀ am ∈ db.allocationMap, ∀ address, am.indexerAddress = some address →
    crates.lowercase address = address

section Lookup

variable {crates : Crates} {since : Int} {db : Db}

/-- In a lower-case database every resolved identity is its own lower case. -/
theorem LowerCase.identity (lower : LowerCase crates db) {o : ObservationRow}
    (stored : o ∈ db.observation) :
    crates.lowercase (db.identity o.indexerAddress) = db.identity o.indexerAddress := by
  unfold Db.identity AllocationMap.identity AllocationMap.resolved
  cases found : db.allocationMap.lookup o.indexerAddress with
  | none => exact lower.observed o stored
  | some am =>
    cases named : am.indexerAddress with
    | none => simpa [named] using lower.observed o stored
    | some address => simpa [named] using lower.mapped am (Table.mem_of_lookup found) address named

/-- The map that the scorer builds holds what `loadProbeAgg` holds. -/
theorem get_loadProbeAggSql (lower : LowerCase crates db) (order : IterOrder (String × ProbeAgg))
    (address : String) :
    (loadProbeAggSql crates order since db).get address =
      aggregate db ((evidenceSince since db).filter fun pair => whose db pair = address) := by
  have named : ∀ row ∈ aggInputs since db, crates.lowercase row.addr = row.addr := by
    intro row listed
    rw [aggInputs_eq] at listed
    obtain ⟨pair, present, rfl⟩ := List.mem_map.mp listed
    exact lower.identity (mem_evidenceSince.mp present).1
  calc (loadProbeAggSql crates order since db).get address
      = aggregateSql ((aggInputs since db).filter fun row => row.addr = address) :=
        AggMap.get_groups (order.perm _) rfl named address
    _ = aggregateSql (((evidenceSince since db).filter fun pair => whose db pair = address).map
          (aggInput db)) := by rw [aggInputs_eq, List.filter_map]; rfl
    _ = aggregate db ((evidenceSince since db).filter fun pair => whose db pair = address) :=
        aggregateSql_map _

end Lookup

end Foghorn.Probe
