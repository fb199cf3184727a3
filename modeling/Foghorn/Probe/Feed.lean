import Foghorn.Probe.ProbeAgg
import Foghorn.Probe.Qos

/-!
# The feed against the grades

The rollup counts observations in buckets, the grades count probes in a window. Over the
same probes both count the same answers, always, and the same faults exactly while no
indexer has two faults in one probe.
-/

namespace Foghorn.Probe

open Foghorn.Std Foghorn.Core

/-- The rows a roll of a window writes for one indexer. -/
def feedRows (cfg : QosRollupConfig) (now : Int) (db : Db) (window : Window) (indexer : String) :
    List QosRow :=
  (rolledRows cfg now db window none).rows.filter fun row => row.indexerAddress = indexer

/-- The sum of `query_count` over them. -/
def feedTotal (cfg : QosRollupConfig) (now : Int) (db : Db) (window : Window) (indexer : String) :
    Nat :=
  ((feedRows cfg now db window indexer).map fun row => row.measure.queryCount).sum

/-- The sum of `divergent_count` over them. -/
def feedFaults (cfg : QosRollupConfig) (now : Int) (db : Db) (window : Window) (indexer : String) :
    Nat :=
  ((feedRows cfg now db window indexer).map fun row => row.measure.divergentCount).sum

/-- A fault of an indexer in a probe dispatched after `since`. -/
def FaultOf (db : Db) (since : Int) (indexer : String) (o : ObservationRow) : Prop :=
  ∃ p ∈ db.probe, p.id = o.probeId ∧ since < p.dispatchedAt ∧ db.isEvidence o ∧
    db.identity o.indexerAddress = indexer ∧ db.outvoted o ∧ db.flagged p.deploymentId = false

/-- No probe holds two faults of one indexer. -/
def OneFaultPerProbe (db : Db) (since : Int) (indexer : String) : Prop :=
  ∀ first ∈ db.observation, ∀ second ∈ db.observation,
    FaultOf db since indexer first → FaultOf db since indexer second →
    first.probeId = second.probeId → first = second

section Counts

variable {cfg : QosRollupConfig} {db : Db} {since : Int} {window : Window}

/-- The rollup's divergent response is the grades' fault. -/
theorem divergent_obsRow (p : ProbeRow) (o : ObservationRow) :
    (obsRow cfg db p o).divergent = isFault db (o, p) := by
  unfold ObsRow.divergent ObsRow.comparable isFault Db.outvoted obsRow
  cases o.responseHash with
  | none => cases db.divergence.lookup o.probeId <;> simp
  | some hash =>
    cases db.divergence.lookup o.probeId with
    | none => simp
    | some d => simp [Bool.and_comm, Bool.and_left_comm]

/-- What the rollup writes for an indexer sums to a count over the observations it read. -/
theorem sum_feedRows (now : Int) (indexer : String) (counted : ObsRow → Bool)
    (measured : QosMeasure → Nat) (same : ∀ rows, measured (measureOf rows) = rows.countP counted) :
    ((feedRows cfg now db window indexer).map fun row => measured row.measure).sum =
      (obsRows cfg db window none).countP fun row =>
        decide (row.indexerAddress = indexer) && counted row := by
  have grouped := sum_countP_groupBy_filter ObsRow.group
    (fun group => decide (group.1 = indexer)) counted (obsRows cfg db window none)
  refine Eq.trans ?_ grouped
  unfold feedRows rolledRows
  rw [List.filter_map, List.map_map]
  congr 1
  apply List.map_congr_left
  intro group _
  exact same group.2

/-- Over one set of probes the rollup and the grades count the same observations. -/
theorem countP_obsRows (sameProbes : ∀ p ∈ db.probe, since < p.dispatchedAt ↔
      window.Holds p.dispatchedAt) (indexer : String) (counted : ObsRow → Bool)
    (graded : Evidence → Bool)
    (same : ∀ o p, counted (obsRow cfg db p o) = graded (o, p)) :
    ((obsRows cfg db window none).countP fun row =>
      decide (row.indexerAddress = indexer) && counted row) =
    ((evidenceSince since db).filter fun pair => whose db pair = indexer).countP graded := by
  rw [List.countP_filter, obsRows, evidenceSince, List.countP_filterMap, List.countP_filterMap]
  apply List.countP_congr
  intro o _
  cases looked : db.probe.lookup o.probeId with
  | none => simp
  | some p =>
    have dispatched := sameProbes p (Table.mem_of_lookup looked)
    have owner : (obsRow cfg db p o).indexerAddress = whose db (o, p) := rfl
    by_cases counts : since < p.dispatchedAt ∧ db.isEvidence o
    · have read : window.Holds p.dispatchedAt ∧ forDeployment none p.deploymentId ∧
          db.isEvidence o := ⟨dispatched.mp counts.1, by simp [forDeployment], counts.2⟩
      simp only [Option.bind_some, if_pos counts, if_pos read, Option.map_some, Option.getD_some,
        owner, same, Bool.and_comm]
    · have unread : ¬ (window.Holds p.dispatchedAt ∧ forDeployment none p.deploymentId ∧
          db.isEvidence o) := fun read => counts ⟨dispatched.mpr read.1, read.2.2⟩
      simp only [Option.bind_some, if_neg counts, if_neg unread, Option.map_none, Option.getD_none]

/-- The faults of an indexer, beside their probes. -/
def faultsOf (db : Db) (since : Int) (indexer : String) : List Evidence :=
  ((evidenceSince since db).filter fun pair => whose db pair = indexer).filter (isFault db)

/-- The faults are the answers in the window that diverged from the stored majority. -/
theorem mem_faultsOf {indexer : String} {pair : Evidence} :
    pair ∈ faultsOf db since indexer ↔
      pair.1 ∈ db.observation ∧ pair.2 ∈ db.probe ∧ pair.2.id = pair.1.probeId ∧
        FaultOf db since indexer pair.1 := by
  rw [faultsOf, List.mem_filter, List.mem_filter, mem_evidenceSince, isFault, decide_eq_true_eq,
    Bool.and_eq_true, Bool.not_eq_true']
  constructor
  · rintro ⟨⟨⟨observed, probed, same, dispatched, evidence⟩, owner⟩, outvoted, unflagged⟩
    exact ⟨observed, probed, same, pair.2, probed, same, dispatched, evidence, owner, outvoted,
      unflagged⟩
  · rintro ⟨observed, probed, same, p, probed', same', dispatched, evidence, owner, outvoted,
      unflagged⟩
    obtain rfl := Table.eq_of_key_eq probed probed' (same.trans same'.symm)
    exact ⟨⟨⟨observed, probed, same, dispatched, evidence⟩, owner⟩, outvoted, unflagged⟩

private theorem nodup_evidenceSince : (evidenceSince since db).Nodup := by
  apply List.Nodup.of_map Prod.fst
  have part : (evidenceSince since db).map Prod.fst = db.observation.rows.filter fun o =>
      ((db.probe.lookup o.probeId).bind fun p =>
        if since < p.dispatchedAt ∧ db.isEvidence o then some (o, p) else none).isSome := by
    rw [evidenceSince, List.map_filterMap, ← List.filterMap_eq_filter]
    apply List.filterMap_congr
    intro o _
    cases looked : db.probe.lookup o.probeId with
    | none => simp [Option.guard, looked]
    | some p =>
      by_cases counts : since < p.dispatchedAt ∧ db.isEvidence o <;>
        simp [counts, looked, Option.guard]
  rw [part]
  exact db.observation.unique.of_map.filter _

/-- Distinct probes count every fault once exactly when no probe holds two of them. -/
theorem faults_aggregate_iff (indexer : String) :
    (aggregate db ((evidenceSince since db).filter fun pair => whose db pair = indexer)).faults =
        ((evidenceSince since db).filter fun pair => whose db pair = indexer).countP (isFault db) ↔
      OneFaultPerProbe db since indexer := by
  have distinct : (faultsOf db since indexer).Nodup := (nodup_evidenceSince.filter _).filter _
  rw [aggregate, countDistinct_eq_countP_iff, ← faultsOf, List.nodup_map_iff_inj_on distinct]
  constructor
  · intro once first firstIn second secondIn firstFault secondFault sameProbe
    obtain ⟨p, probed, ofFirst, rest⟩ := firstFault
    have pairs := once (first, p)
      (mem_faultsOf.mpr ⟨firstIn, probed, ofFirst, p, probed, ofFirst, rest⟩)
      (second, p) (mem_faultsOf.mpr ⟨secondIn, probed, ofFirst.trans sameProbe, secondFault⟩)
      sameProbe
    exact congrArg Prod.fst pairs
  · rintro once ⟨first, p⟩ firstIn ⟨second, q⟩ secondIn sameProbe
    obtain ⟨firstObserved, probed, ofFirst, firstFault⟩ := mem_faultsOf.mp firstIn
    obtain ⟨secondObserved, probed', ofSecond, secondFault⟩ := mem_faultsOf.mp secondIn
    obtain rfl : first = second :=
      once first firstObserved second secondObserved firstFault secondFault sameProbe
    obtain rfl : p = q := Table.eq_of_key_eq probed probed' (ofFirst.trans ofSecond.symm)
    rfl

/-- The feed and the grades count the same answers and the same faults of an indexer. -/
structure FeedAgrees (cfg : QosRollupConfig) (now : Int) (db : Db) (window : Window)
    (grades : AggMap) (indexer : String) : Prop where
  total : feedTotal cfg now db window indexer = (grades.get indexer).total
  faults : feedFaults cfg now db window indexer = (grades.get indexer).faults

/-- The rolled-up total counts the indexer's answers in the window. -/
theorem feedTotal_eq (now : Int) (indexer : String)
    (sameProbes : ∀ p ∈ db.probe, since < p.dispatchedAt ↔ window.Holds p.dispatchedAt) :
    feedTotal cfg now db window indexer =
      ((evidenceSince since db).filter fun pair => whose db pair = indexer).length := by
  have sums : feedTotal cfg now db window indexer = _ :=
    sum_feedRows now indexer (fun _ => true) QosMeasure.queryCount fun rows => by simp [measureOf]
  rw [sums, countP_obsRows sameProbes indexer _ (fun _ => true) fun _ _ => rfl, List.countP_true]

/-- The rolled-up faults count the indexer's outvoted answers in the window. -/
theorem feedFaults_eq (now : Int) (indexer : String)
    (sameProbes : ∀ p ∈ db.probe, since < p.dispatchedAt ↔ window.Holds p.dispatchedAt) :
    feedFaults cfg now db window indexer =
      ((evidenceSince since db).filter fun pair => whose db pair = indexer).countP (isFault db) := by
  have sums : feedFaults cfg now db window indexer = _ :=
    sum_feedRows now indexer ObsRow.divergent QosMeasure.divergentCount fun _ => rfl
  rw [sums, countP_obsRows sameProbes indexer _ (isFault db) fun o p => divergent_obsRow p o]

/-- Over the same probes, the feed and the grades agree on an indexer exactly when no probe
holds two of its faults. -/
theorem feedAgrees_iff (crates : Crates) (order : IterOrder (String × List Evidence))
    (cfg : QosRollupConfig) (now since lower : Int) (upper : Option Int) (db : Db)
    (indexer : String)
    (lowerCase : ∀ o ∈ db.observation,
      crates.lowercase (db.identity o.indexerAddress) = db.identity o.indexerAddress)
    (sameProbes : ∀ p ∈ db.probe, since < p.dispatchedAt ↔
      (windowRange cfg lower upper).Holds p.dispatchedAt) :
    FeedAgrees cfg now db (windowRange cfg lower upper) (loadProbeAgg crates order since db) indexer ↔
      OneFaultPerProbe db since indexer := by
  rw [← faults_aggregate_iff]
  constructor
  · intro agrees
    rw [← get_loadProbeAgg lowerCase, ← agrees.faults, feedFaults_eq now indexer sameProbes]
  · intro once
    refine ⟨?_, ?_⟩
    · rw [feedTotal_eq now indexer sameProbes, get_loadProbeAgg lowerCase]
      rfl
    · rw [feedFaults_eq now indexer sameProbes, get_loadProbeAgg lowerCase, once]

end Counts

section Samples

/-- A clean answer to the first probe. -/
def storedAnswer (address hash : String) (mode : DispatchMode) : ObservationRow where
  probeId := 1
  indexerAddress := address
  responseHash := some hash
  latencyMs := some 10
  metaBlockNumber := none
  metaBlockHash := none
  httpStatus := some 200
  errorClass := none
  stakeWeight := .exact 1
  dispatchMode := mode
  requestCid := none
  responseCid := none
  attestation := none

def onlyProbe : ProbeRow := ⟨1, "Qm", "0x00", 7, "q", "Q_byid", "", 0⟩

/-- Three indexers agree; a fourth is paid, reached again under its signing key, and wrong
both times. -/
def twiceWrongDb : Db :=
  { Db.empty with
    probe := Table.empty.insertNew onlyProbe
    observation := ⟨[storedAnswer "0xa" "right" .paid, storedAnswer "0xb" "right" .paid,
      storedAnswer "0xc" "right" .paid, storedAnswer "0xindexer" "wrong" .paid,
      storedAnswer "0xkey" "wrong" .gateway], by decide⟩
    divergence := Table.empty.insertNew ⟨1, 2, .array [], "right", 3, "right", .exact 3, 0⟩
    allocationMap := Table.empty.insertNew ⟨"0xkey", some "0xindexer", none, 0⟩ }

def fiveMinutes : QosRollupConfig := ⟨300, 3600, "lodestar", "arbitrum-one", 12⟩

private theorem twiceWrong_lowerCase : ∀ o ∈ twiceWrongDb.observation,
    (Crates.knowing [] []).lowercase (twiceWrongDb.identity o.indexerAddress) =
      twiceWrongDb.identity o.indexerAddress := by
  have all : ∀ o ∈ twiceWrongDb.observation.rows,
      (Crates.knowing [] []).lowercase (twiceWrongDb.identity o.indexerAddress) =
        twiceWrongDb.identity o.indexerAddress := by
    decide
  exact all

private theorem twiceWrong_sameProbes : ∀ p ∈ twiceWrongDb.probe, -1 < p.dispatchedAt ↔
    (windowRange fiveMinutes 0 none).Holds p.dispatchedAt := by
  intro p member
  rcases Table.mem_insertNew.mp member with old | ⟨_, rfl⟩
  · exact absurd old (Table.not_mem_empty p)
  · decide

/-- The feed counts two faults of the indexer, the grades one. -/
theorem twiceWrong_disagrees :
    ¬ FeedAgrees fiveMinutes 0 twiceWrongDb (windowRange fiveMinutes 0 none)
      (loadProbeAgg (Crates.knowing [] []) IterOrder.asInserted (-1) twiceWrongDb) "0xindexer" := by
  intro agrees
  have faults := agrees.faults
  revert faults
  decide

/-- The indexer that was wrong twice on one probe has two faults there. -/
theorem twiceWrong_two_faults : ¬ OneFaultPerProbe twiceWrongDb (-1) "0xindexer" := fun once =>
  twiceWrong_disagrees ((feedAgrees_iff _ _ _ _ _ _ _ _ _ twiceWrong_lowerCase
    twiceWrong_sameProbes).mpr once)

/-- With two faults on one probe the score and the rollup count differently. -/
theorem two_faults_refute_agreement :
    ¬ ∀ (crates : Crates) (order : IterOrder (String × List Evidence)) (cfg : QosRollupConfig)
      (now since lower : Int) (upper : Option Int) (db : Db) (indexer : String)
      (_ : ∀ o ∈ db.observation,
        crates.lowercase (db.identity o.indexerAddress) = db.identity o.indexerAddress)
      (_ : ∀ p ∈ db.probe, since < p.dispatchedAt ↔
        (windowRange cfg lower upper).Holds p.dispatchedAt),
      FeedAgrees cfg now db (windowRange cfg lower upper) (loadProbeAgg crates order since db)
        indexer := fun always =>
  twiceWrong_disagrees (always _ _ _ _ _ _ _ _ _ twiceWrong_lowerCase twiceWrong_sameProbes)

end Samples

end Foghorn.Probe
