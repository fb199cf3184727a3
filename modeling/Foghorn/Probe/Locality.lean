import Foghorn.Probe.Nondeterministic
import Foghorn.Probe.Resolver
import Foghorn.Probe.Scheduler

/-!
# What a stored bucket depends on

The rollup compares measures group by group: `storedMeasure` is what the table holds for
a group, `wantedMeasure` what the observations give. An answer enters a group through
its probe, its resolved indexer, the clustering of its probe and the flag of its
deployment (`reading`), and only if its probe lies in the group's deployment and bucket
(`InCell`). So each write has a short list of groups whose wanted measure it can change.
-/

namespace Foghorn.Probe

open Foghorn.Std Foghorn.Core

/-- Indexer, deployment and bucket. -/
abbrev QosGroup := String × String × Int

/-- The measure the table holds for a group in the series of this width. -/
def storedMeasure (cfg : QosRollupConfig) (db : Db) (group : QosGroup) : Option QosMeasure :=
  (db.foghornQos.lookup (group.1, group.2.1, group.2.2, cfg.width)).map QosRow.measure

/-- The measure the observations give for a group, if it has any. -/
def wantedMeasure (cfg : QosRollupConfig) (db : Db) (group : QosGroup) : Option QosMeasure :=
  match groupRows cfg db group with
  | [] => none
  | head :: tail => some (measureOf (head :: tail))

/-- The probe lies in the deployment and the bucket of the group. -/
def InCell (cfg : QosRollupConfig) (p : ProbeRow) (group : QosGroup) : Prop :=
  p.deploymentId = group.2.1 ∧ floorTo cfg.bucketMicros p.dispatchedAt = group.2.2

/-- The probe of this id, if it is stored, lies elsewhere. -/
def Outside (cfg : QosRollupConfig) (db : Db) (group : QosGroup) (probeId : Uuid) : Prop :=
  ∀ p, db.probe.lookup probeId = some p → ¬ InCell cfg p group

/-- All that the rollup reads about an answer. -/
def reading (db : Db) (o : ObservationRow) :
    Option (ProbeRow × Option String × Option DivergenceRow × Nat × Bool) :=
  (db.probe.lookup o.probeId).map fun p =>
    (p, db.resolved o.indexerAddress, db.divergence.lookup o.probeId, db.responders o.probeId,
      db.flagged p.deploymentId)

section Measures

variable {cfg : QosRollupConfig} {db : Db} {group : QosGroup}

/-- The row wanted in a cell carries the measurement wanted there. -/
theorem measure_wantedRow (now : Int) (key : QosKey) :
    (wantedRow cfg now db key).map QosRow.measure = wantedMeasure cfg db (QosKey.group key) := by
  unfold wantedRow wantedMeasure
  cases groupRows cfg db (QosKey.group key) <;> rfl

/-- A group with observations has a probe in its cell. -/
theorem exists_probe_of_wantedMeasure (wanted : wantedMeasure cfg db group ≠ none) :
    ∃ p ∈ db.probe, InCell cfg p group := by
  have same : (wantedRow cfg 0 db (group.1, group.2.1, group.2.2, cfg.width)).map QosRow.measure =
      wantedMeasure cfg db group := measure_wantedRow 0 _
  rw [← same, Ne, Option.map_eq_none_iff] at wanted
  obtain ⟨row, found⟩ := Option.ne_none_iff_exists'.mp wanted
  exact exists_probe_of_wantedRow found

/-- A roll stores the wanted measures in its range and touches no other group. -/
theorem storedMeasure_rollRange (positive : 0 < cfg.bucketSecs) (now lower : Int)
    (upper : Option Int) (deployment : Option String) :
    storedMeasure cfg (rollRange cfg now lower upper deployment db).1 group =
      if (windowRange cfg lower upper).Holds group.2.2 ∧ forDeployment deployment group.2.1 then
        wantedMeasure cfg db group
      else storedMeasure cfg db group := by
  have covers : Covers cfg (windowRange cfg lower upper) deployment
      (group.1, group.2.1, group.2.2, cfg.width) ↔
      (windowRange cfg lower upper).Holds group.2.2 ∧ forDeployment deployment group.2.1 := by
    simp [Covers]
  have wanted : (wantedRow cfg now db (group.1, group.2.1, group.2.2, cfg.width)).map
      QosRow.measure = wantedMeasure cfg db group := measure_wantedRow now _
  have keeps : ∀ (row : QosRow) (stored : Option QosRow),
      ((stored.map (keepFees row)).getD row).measure = row.measure := by
    intro row stored
    cases stored <;> rfl
  rw [storedMeasure, lookup_rollRange positive]
  simp only [covers]
  split
  · rw [← wanted, Option.map_map]
    exact Option.map_congr fun row _ => keeps row _
  · rfl

end Measures

section Locality

variable {cfg : QosRollupConfig} {db db' : Db} {group : QosGroup}

/-- What an answer contributes to a group. -/
def contribution (cfg : QosRollupConfig) (db : Db) (group : QosGroup) (o : ObservationRow) :
    Option ObsRow :=
  ((db.probe.lookup o.probeId).bind fun p =>
    if db.isEvidence o then some (obsRow cfg db p o) else none).filter fun row => row.group = group

/-- The rows of a group are what each observation contributes to it. -/
theorem groupRows_eq (cfg : QosRollupConfig) (db : Db) (group : QosGroup) :
    groupRows cfg db group = db.observation.rows.filterMap (contribution cfg db group) := by
  rw [groupRows, allObsRows, List.filter_filterMap]
  rfl

private theorem contribution_eq_none {o : ObservationRow}
    (outside : Outside cfg db group o.probeId) :
    contribution cfg db group o = none := by
  unfold contribution
  cases found : db.probe.lookup o.probeId with
  | none => rfl
  | some p =>
    have elsewhere : (obsRow cfg db p o).group ≠ group := by
      rintro rfl
      exact outside p found ⟨rfl, rfl⟩
    by_cases evidence : db.isEvidence o <;> simp [evidence, elsewhere, Option.filter]

/-- Answers that read the same contribute the same. -/
theorem contribution_congr {o : ObservationRow} (same : reading db' o = reading db o) :
    contribution cfg db' group o = contribution cfg db group o := by
  unfold contribution
  unfold reading at same
  cases found : db.probe.lookup o.probeId with
  | none =>
    rw [found, Option.map_none, Option.map_eq_none_iff] at same
    rw [same, Option.bind_none, Option.bind_none]
  | some p =>
    rw [found, Option.map_some, Option.map_eq_some_iff] at same
    obtain ⟨p', found', reads⟩ := same
    obtain ⟨rfl, resolved, divergence, responders, flagged⟩ :
        p' = p ∧ db'.resolved o.indexerAddress = db.resolved o.indexerAddress ∧
          db'.divergence.lookup o.probeId = db.divergence.lookup o.probeId ∧
          db'.responders o.probeId = db.responders o.probeId ∧
          db'.flagged p'.deploymentId = db.flagged p.deploymentId := by
      simpa only [Prod.mk.injEq] using reads
    have evidence : db'.isEvidence o = db.isEvidence o := by simp only [Db.isEvidence, resolved]
    have identity : db'.identity o.indexerAddress = db.identity o.indexerAddress :=
      congrArg (fun indexer => indexer.getD o.indexerAddress) resolved
    have row : obsRow cfg db' p' o = obsRow cfg db p' o := by
      simp only [obsRow, identity, divergence, responders, flagged]
    rw [found', Option.bind_some, Option.bind_some, evidence, row]

/-- A group keeps its rows when each of its answers reads as before, the others are still
outside its cell, and the new ones are outside it too. -/
theorem groupRows_append {extra : List ObservationRow}
    (rows : db'.observation.rows = db.observation.rows ++ extra)
    (each : ∀ o ∈ db.observation, reading db' o = reading db o ∨
      Outside cfg db' group o.probeId ∧ Outside cfg db group o.probeId)
    (added : ∀ o ∈ extra, Outside cfg db' group o.probeId) :
    groupRows cfg db' group = groupRows cfg db group := by
  rw [groupRows_eq, groupRows_eq, rows, List.filterMap_append]
  have nothing : extra.filterMap (contribution cfg db' group) = [] :=
    List.filterMap_eq_nil_iff.mpr fun o member => contribution_eq_none (added o member)
  rw [nothing, List.append_nil]
  apply List.filterMap_congr
  intro o member
  rcases each o member with same | ⟨after, before⟩
  · exact contribution_congr same
  · rw [contribution_eq_none after, contribution_eq_none before]

/-- Observations that read alike, or lie outside, give a group the same rows. -/
theorem groupRows_congr (rows : db'.observation.rows = db.observation.rows)
    (each : ∀ o ∈ db.observation, reading db' o = reading db o ∨
      Outside cfg db' group o.probeId ∧ Outside cfg db group o.probeId) :
    groupRows cfg db' group = groupRows cfg db group :=
  groupRows_append (rows.trans (List.append_nil _).symm) each (fun _ none_ => nomatch none_)

private theorem wantedMeasure_congr (same : groupRows cfg db' group = groupRows cfg db group) :
    wantedMeasure cfg db' group = wantedMeasure cfg db group := by
  rw [wantedMeasure, same, wantedMeasure]

end Locality

/-- The probe that a statement of `store_results` is about. -/
def StoreStatement.probeOf (db : Db) : StoreStatement → Option ProbeRow
  | .insertProbe row => some row
  | .insertObservation row => db.probe.lookup row.probeId
  | .insertDivergence row => db.probe.lookup row.probeId

section Writes

variable {cfg : QosRollupConfig} {db : Db} {group : QosGroup}

private theorem responders_insertObservation {row : ObservationRow} {probeId : Uuid}
    (other : row.probeId ≠ probeId) :
    ((StoreStatement.insertObservation row).exec db).responders probeId = db.responders probeId := by
  by_cases taken : db.observation.holds row.key
  · rw [StoreStatement.exec, Table.insertNew_of_holds taken]
  · have rows := Table.rows_insertNew taken
    simp [Db.responders, Db.answers, StoreStatement.exec, rows, other]

/-- A statement of `store_results` matters to the cell of its probe alone. -/
theorem wantedMeasure_store (statement : StoreStatement)
    (outside : ∀ p ∈ statement.probeOf db, ¬ InCell cfg p group) :
    wantedMeasure cfg (statement.exec db) group = wantedMeasure cfg db group := by
  apply wantedMeasure_congr
  cases statement with
  | insertProbe row =>
    have lookup' : ∀ id, (db.probe.insertNew row).lookup id =
        (db.probe.lookup id).or (if row.id = id then some row else none) :=
      fun _ => Table.lookup_insertNew
    refine groupRows_congr rfl fun o _ => ?_
    cases found : db.probe.lookup o.probeId with
    | some p =>
      left
      simp only [reading, StoreStatement.exec, lookup', found, Option.some_or]
      rfl
    | none =>
      right
      refine ⟨fun p after => ?_, fun p before => by rw [found] at before; cases before⟩
      rw [StoreStatement.exec, lookup', found, Option.none_or, Option.ite_none_right_eq_some] at after
      exact outside p after.2
  | insertObservation row =>
    have elsewhere : Outside cfg db group row.probeId := outside
    have same : ∀ o : ObservationRow,
        reading ((StoreStatement.insertObservation row).exec db) o = reading db o ∨
          Outside cfg ((StoreStatement.insertObservation row).exec db) group o.probeId ∧
            Outside cfg db group o.probeId := by
      intro o
      by_cases ofProbe : row.probeId = o.probeId
      · rw [ofProbe] at elsewhere
        exact Or.inr ⟨elsewhere, elsewhere⟩
      · left
        simp only [reading, responders_insertObservation ofProbe]
        rfl
    by_cases taken : db.observation.holds row.key
    · rw [StoreStatement.exec, Table.insertNew_of_holds taken]
    · refine groupRows_append (Table.rows_insertNew taken) (fun o _ => same o) ?_
      intro o added
      obtain rfl := List.mem_singleton.mp added
      exact elsewhere
  | insertDivergence row =>
    have elsewhere : Outside cfg db group row.probeId := outside
    refine groupRows_congr rfl fun o _ => ?_
    by_cases ofProbe : row.probeId = o.probeId
    · rw [ofProbe] at elsewhere
      exact Or.inr ⟨elsewhere, elsewhere⟩
    · left
      have lookup' : (db.divergence.insertNew row).lookup o.probeId =
          db.divergence.lookup o.probeId := by
        rw [Table.lookup_insertNew, if_neg ofProbe, Option.or_none]
      simp only [reading, StoreStatement.exec, lookup']
      rfl

/-- News about a key matters to the cells it answered in. -/
theorem wantedMeasure_recordAttribution (groupOrder : IterOrder (String × List ProbeRow))
    (now : Int) (key indexer : String) (url : Option String)
    (outside : db.resolved key ≠ some indexer → ∀ o ∈ db.observation, o.indexerAddress = key →
      Outside cfg db group o.probeId) :
    wantedMeasure cfg (recordAttribution groupOrder now key indexer url db) group =
      wantedMeasure cfg db group := by
  apply wantedMeasure_congr
  refine groupRows_congr rfl fun o observed => ?_
  by_cases news : o.indexerAddress = key ∧ db.resolved key ≠ some indexer
  · have elsewhere := outside news.2 o observed news.1
    exact Or.inr ⟨elsewhere, elsewhere⟩
  · left
    have resolved : (recordAttribution groupOrder now key indexer url db).resolved
        o.indexerAddress = db.resolved o.indexerAddress := by
      rw [resolved_recordAttribution]
      by_cases signed : o.indexerAddress = key
      · rw [if_pos signed, signed]
        exact (not_not.mp fun other => news ⟨signed, other⟩).symm
      · rw [if_neg signed]
    simp only [reading, resolved]
    rfl

/-- Recording a missing check changes no wanted measurement. -/
theorem wantedMeasure_recordMissing (now : Int) (key : String) :
    wantedMeasure cfg (recordMissing now key db) group = wantedMeasure cfg db group := by
  apply wantedMeasure_congr
  refine groupRows_congr rfl fun o _ => Or.inl ?_
  simp only [reading, resolved_recordMissing]
  rfl

/-- A statement about flags matters to the deployments whose flag it changes. -/
theorem wantedMeasure_detect (statement : DetectStatement) (now : Int)
    (unchanged : (statement.exec now db).flagged group.2.1 = db.flagged group.2.1) :
    wantedMeasure cfg (statement.exec now db) group = wantedMeasure cfg db group := by
  obtain ⟨probe, observation, divergence, allocationMap⟩ :
      (statement.exec now db).probe = db.probe ∧
        (statement.exec now db).observation = db.observation ∧
        (statement.exec now db).divergence = db.divergence ∧
        (statement.exec now db).allocationMap = db.allocationMap := by
    cases statement <;> exact ⟨rfl, rfl, rfl, rfl⟩
  apply wantedMeasure_congr
  refine groupRows_congr (by rw [observation]) fun o _ => ?_
  by_cases ofDeployment : ∃ p, db.probe.lookup o.probeId = some p ∧ p.deploymentId = group.2.1
  · obtain ⟨p, found, same⟩ := ofDeployment
    left
    simp only [reading, probe, found, Option.map_some, divergence, Db.resolved, allocationMap,
      Db.responders, Db.answers, observation, same, unchanged]
  · right
    have elsewhere : Outside cfg db group o.probeId :=
      fun p found inCell => ofDeployment ⟨p, found, inCell.1⟩
    refine ⟨fun p found => elsewhere p (probe ▸ found), elsewhere⟩

end Writes

end Foghorn.Probe
