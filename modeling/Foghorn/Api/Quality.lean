import Foghorn.Std.Aggregate
import Foghorn.Probe.Feed
import Foghorn.Probe.ProbeAggSql

/-!
# The quality of an indexer

The public pages count over the shared fragment what the grades count over the scorer's copy.
-/

namespace Foghorn.Api

open Foghorn.Std Foghorn.Core Foghorn.Probe

/-- `ROUND` of an exact number, a half away from zero. -/
def roundHalfAway (value : ℚ) : Int :=
  if 0 ≤ value then (value + 1 / 2).floor else -(-value + 1 / 2).floor

/-- `COUNT(DISTINCT probe_id) FILTER (WHERE response_hash IS NOT NULL)`. -/
def answeredProbes (judged : List JudgedRow) : Nat :=
  countDistinct JudgedRow.probeId (fun row => row.responseHash.isSome) judged

/-- `COUNT(DISTINCT probe_id) FILTER (WHERE fault)`. -/
def faultyProbes (judged : List JudgedRow) : Nat :=
  countDistinct JudgedRow.probeId JudgedRow.fault judged

structure QualitySummary where
  totalProbes : Nat
  divergentProbes : Nat
  avgLatencyMs : Option Int
  p50Latency : Option ℚ
  p95Latency : Option ℚ

def summaryOf (judged : List JudgedRow) : QualitySummary where
  totalProbes := answeredProbes judged
  divergentProbes := faultyProbes judged
  avgLatencyMs := (average latencies).map roundHalfAway
  p50Latency := percentileCont (1 / 2) latencies
  p95Latency := percentileCont (95 / 100) latencies
where
  /-- The latencies of the answers that have a hash. -/
  latencies : List ℚ := (judged.filter fun row => row.responseHash.isSome).filterMap fun row =>
    row.latencyMs.map fun latency => (latency : ℚ)

structure DeploymentQuality where
  deploymentId : String
  totalProbes : Nat
  divergentProbes : Nat

structure RecentProbe where
  id : Uuid
  deploymentId : String
  queryCategory : String
  dispatchedAt : Int
  responseHash : Option String
  divergent : Bool

structure QualityRows where
  summary : QualitySummary
  byDeployment : List DeploymentQuality
  recent : List RecentProbe

/-- The rows of `judged` that are about an indexer. -/
def ofIndexer (address : String) (judged : List JudgedRow) : List JudgedRow :=
  judged.filter fun row => row.indexerAddress = address

/-- `quality_rows`; `groups` and `ties` are the orders that the queries leave open. -/
def qualityRows (groups : IterOrder DeploymentQuality) (ties : IterOrder JudgedRow) (db : Db)
    (since : Int) (address : String) : QualityRows :=
  let judged := ofIndexer address (judgedProbesSql db since true)
  { summary := summaryOf judged
    byDeployment := groups.arrange ((groupBy JudgedRow.deploymentId judged).map fun group =>
      ⟨group.1, answeredProbes group.2, faultyProbes group.2⟩)
    recent := (((ties.arrange judged).mergeSort fun first second =>
      second.dispatchedAt ≤ first.dispatchedAt).take 20).map fun row =>
        ⟨row.probeId, row.deploymentId, row.queryCategory, row.dispatchedAt, row.responseHash,
          row.fault⟩ }

/-- A probe in which an indexer has a fault. -/
def FaultyIn (judged : List JudgedRow) (address : String) (id : Uuid) : Prop :=
  ∃ row ∈ judged, row.indexerAddress = address ∧ row.probeId = id ∧ row.fault

section Judged

variable {db : Db} {since : Int} {excuse : Bool} {address : String}

/-- The judged rows of an indexer come one each from the evidence on it. -/
theorem ofIndexer_eq_map (db : Db) (since : Int) (excuse : Bool) (address : String) :
    ofIndexer address (judgedProbesSql db since excuse) =
      ((evidenceSince since db).filter fun pair => whose db pair = address).map
        (judgedRow db excuse) := by
  rw [ofIndexer, judgedProbesSql_eq, judgedProbes_eq_map, List.filter_map]
  rfl

/-- A probe is faulty in the judged rows when its answer was outvoted and is not excused. -/
theorem faultyIn_iff {id : Uuid} :
    FaultyIn (judgedProbesSql db since excuse) address id ↔
      ∃ pair ∈ evidenceSince since db, whose db pair = address ∧ pair.2.id = id ∧
        db.outvoted pair.1 ∧ ¬ (excuse ∧ db.flagged pair.2.deploymentId) := by
  have faulty (pair : Evidence) : (judgedRow db excuse pair).fault ↔
      db.outvoted pair.1 ∧ ¬ (excuse ∧ db.flagged pair.2.deploymentId) := by
    cases excuse <;> simp [judgedRow]
  rw [FaultyIn, judgedProbesSql_eq, judgedProbes_eq_map]
  constructor
  · rintro ⟨_, listed, about, same, fault⟩
    obtain ⟨pair, present, rfl⟩ := List.mem_map.mp listed
    exact ⟨pair, present, about, same, (faulty pair).mp fault⟩
  · rintro ⟨pair, present, about, same, fault⟩
    exact ⟨_, List.mem_map_of_mem present, about, same, (faulty pair).mpr fault⟩

end Judged

/-- The public pages and the grades count the same answered probes and the same faults of an
indexer, and without excuses faults are added only on flagged deployments. -/
theorem quality_agrees_with_grades (crates : Crates) (db : Db) (lower : LowerCase crates db)
    (order : IterOrder (String × ProbeAgg)) (groups : IterOrder DeploymentQuality)
    (ties : IterOrder JudgedRow) (since : Int) (address : String) :
    answeredProbes (ofIndexer address (judgedProbesSql db since true)) =
        ((loadProbeAggSql crates order since db).get address).probesAnswered ∧
      faultyProbes (ofIndexer address (judgedProbesSql db since true)) =
        ((loadProbeAggSql crates order since db).get address).faults ∧
      ((qualityRows groups ties db since address).summary.totalProbes,
          (qualityRows groups ties db since address).summary.divergentProbes) =
        (((loadProbeAggSql crates order since db).get address).probesAnswered,
          ((loadProbeAggSql crates order since db).get address).faults) ∧
      ∀ p ∈ db.probe, FaultyIn (judgedProbesSql db since true) address p.id ↔
        FaultyIn (judgedProbesSql db since false) address p.id ∧ ¬ db.flagged p.deploymentId := by
  have probes : ∀ pair ∈ (evidenceSince since db).filter (fun pair => whose db pair = address),
      pair.2.id = pair.1.probeId := fun pair present =>
    (mem_evidenceSince.mp (List.mem_filter.mp present).1).2.2.1
  have answered : answeredProbes (ofIndexer address (judgedProbesSql db since true)) =
      ((loadProbeAggSql crates order since db).get address).probesAnswered := by
    rw [get_loadProbeAggSql lower, ofIndexer_eq_map, answeredProbes, countDistinct_map]
    exact countDistinct_congr probes fun _ _ => rfl
  have faults : faultyProbes (ofIndexer address (judgedProbesSql db since true)) =
      ((loadProbeAggSql crates order since db).get address).faults := by
    rw [get_loadProbeAggSql lower, ofIndexer_eq_map, faultyProbes, countDistinct_map]
    exact countDistinct_congr probes fun _ _ => by simp [judgedRow, isFault]
  refine ⟨answered, faults, Prod.ext answered faults, fun p stored => ?_⟩
  rw [faultyIn_iff, faultyIn_iff]
  -- A probe has one deployment, so its faults are excused together.
  have same {pair : Evidence} (present : pair ∈ evidenceSince since db) (about : pair.2.id = p.id) :
      pair.2 = p := Table.eq_of_key_eq (mem_evidenceSince.mp present).2.1 stored about
  constructor
  · rintro ⟨pair, present, whose_eq, about, outvoted, unexcused⟩
    refine ⟨⟨pair, present, whose_eq, about, outvoted, fun excused => Bool.false_ne_true excused.1⟩, ?_⟩
    rw [← same present about]
    exact fun flagged => unexcused ⟨rfl, flagged⟩
  · rintro ⟨⟨pair, present, whose_eq, about, outvoted, -⟩, unflagged⟩
    refine ⟨pair, present, whose_eq, about, outvoted, fun excused => unflagged ?_⟩
    rw [← same present about]
    exact excused.2

section Samples

private theorem twiceWrong_addresses : LowerCase (Crates.knowing [] []) twiceWrongDb := by
  constructor
  · have observed : ∀ o ∈ twiceWrongDb.observation.rows,
        (Crates.knowing [] []).lowercase o.indexerAddress = o.indexerAddress := by
      decide
    exact observed
  · intro am stored address named
    rcases Table.mem_insertNew.mp stored with old | ⟨-, rfl⟩
    · exact absurd old (Table.not_mem_empty am)
    · obtain rfl := Option.some.inj named
      decide

/-- An indexer that was wrong twice about one probe has one fault in its grade. -/
theorem twice_wrong_counted_once :
    ((loadProbeAggSql (Crates.knowing [] []) .asInserted (-1) twiceWrongDb).get "0xindexer").faults =
      1 := by
  rw [← (quality_agrees_with_grades (Crates.knowing [] []) twiceWrongDb twiceWrong_addresses
    .asInserted .asInserted .asInserted (-1) "0xindexer").2.1]
  decide

end Samples

end Foghorn.Api
