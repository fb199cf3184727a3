import Foghorn.Std.Program
import Foghorn.Probe.Qos

/-!
# Flagging deployments that honest indexers cannot agree on

A run of `detect_nondeterministic` reads which deployments are noisy, writes the flags, and
then asks for a reroll of every deployment whose flag it changed. The statements are
committed one by one, so a failure between a flag and its request loses the request:
the next run compares with flags that are already new. `nothing_lost_iff_harmless` says at
which statements a failure is harmless.
-/

namespace Foghorn.Probe

open Foghorn.Std Foghorn.Core

def sevenDays : Int := 7 * 86400 * microsPerSecond

/-- A deployment that qualifies, with its probes and those that had a fault. -/
structure NoisyRow where
  deploymentId : String
  total : Nat
  divergent : Nat
deriving DecidableEq

/-- `minority`: how many probes each indexer was at fault in, on each deployment. -/
def minority (judged : List JudgedRow) : List ((String × String) × Nat) :=
  (groupBy (fun row => (row.deploymentId, row.indexerAddress)) (judged.filter JudgedRow.fault)).map
    fun group => (group.1, countDistinct JudgedRow.probeId (fun _ => true) group.2)

/-- Disagreement is material, spread over several indexers, and no one of them holds most of it. -/
def isNoisy (total divergent : Nat) (times : List Nat) : Bool :=
  3 ≤ divergent && total ≤ 5 * divergent && 2 ≤ times.length &&
    times.all fun most => 5 * most ≤ 3 * times.sum

/-- The deployments that qualify: noisy over the judged probes of the last seven days, with
nobody excused. -/
def noisyRows (now : Int) (db : Db) : List NoisyRow :=
  let judged := judgedProbes db (now - sevenDays) false
  let answered := judged.filter fun row => row.responseHash.isSome
  (groupBy JudgedRow.deploymentId answered).filterMap fun (deployment, rows) =>
    let total := countDistinct JudgedRow.probeId (fun _ => true) rows
    let divergent := countDistinct JudgedRow.probeId JudgedRow.fault rows
    let times := ((minority judged).filter fun entry => entry.1.1 = deployment).map Prod.snd
    if isNoisy total divergent times then some ⟨deployment, total, divergent⟩ else none

/-- What follows the last slash. -/
def lastSegment (path : String) : String :=
  String.ofList (path.toList.reverse.takeWhile fun c => c ≠ '/').reverse

/-- `sample_divergent_fields`: names of fields seen diverging; a diff that is not an array
fails the query, and a failed query samples nothing. -/
def sampleDivergentFields (now : Int) (db : Db) (deployment : String) : List String :=
  let diverged := db.divergence.rows.filter fun d =>
    1 < d.clusterCount && (db.probe.lookup d.probeId).any fun p =>
      p.deploymentId = deployment && now - sevenDays < p.dispatchedAt
  match diverged.mapM fun d => d.diffPatches.asArray with
  | none => []
  | some patches =>
    let fields := patches.flatten.map fun elem => ((elem.get "path").bind Json.asStr).map lastSegment
    ((fields.dedup.take 12).filterMap id).filter fun field => field ≠ ""

/-- The statements of a run. -/
inductive DetectStatement where
  | flag (deployment : String) (total divergent : Nat) (sample : List String)
  | keepOnly (deployments : List String)
  | request (deployment : String)
deriving DecidableEq

namespace DetectStatement

/-- The row a flag inserts; on conflict the time it was first seen stays. -/
def flagRow (now : Int) (deployment : String) (total divergent : Nat) (sample : List String) :
    NondeterministicRow where
  deploymentId := deployment
  divergentProbes := divergent
  totalProbes := total
  divergenceRate := divergent / max total 1
  sampleFields := sample
  firstSeen := now
  lastSeen := now

def exec (now : Int) : DetectStatement → Db → Db
  | .flag deployment total divergent sample, db =>
    let row := flagRow now deployment total divergent sample
    { db with
      nondeterministic := db.nondeterministic.upsert row
        (fun old => { row with firstSeen := old.firstSeen }) (fun _ _ => rfl) }
  | .keepOnly deployments, db =>
    { db with
      nondeterministic := db.nondeterministic.deleteWhere fun row =>
        row.deploymentId ∉ deployments }
  | .request deployment, db =>
    requestDeploymentReroll now deployment "non-deterministic flag changed" db

end DetectStatement

/-- `symmetric_difference`. -/
def symmetricDifference (left right : List String) : List String :=
  left.filter (· ∉ right) ++ right.filter (· ∉ left)

/-- One run: when, and in which orders the query returns and the set iterates. -/
structure DetectRun where
  now : Int
  rowOrder : IterOrder NoisyRow
  changeOrder : IterOrder String

namespace DetectRun

def rows (run : DetectRun) (db : Db) : List NoisyRow := run.rowOrder.arrange (noisyRows run.now db)

/-- The deployments of `flagged_now`. -/
def noisy (run : DetectRun) (db : Db) : List String := (run.rows db).map NoisyRow.deploymentId

/-- The deployments whose flag the run changes, in the order it asks for them. -/
def changes (run : DetectRun) (db : Db) : List String :=
  run.changeOrder.arrange (symmetricDifference
    (db.nondeterministic.rows.map NondeterministicRow.deploymentId) (run.noisy db))

/-- The statement that flags a noisy deployment. -/
def flagOf (run : DetectRun) (db : Db) (row : NoisyRow) : DetectStatement :=
  .flag row.deploymentId row.total row.divergent
    (sampleDivergentFields run.now db row.deploymentId)

/-- The statements that write flags. -/
def writes (run : DetectRun) (db : Db) : List DetectStatement :=
  (run.rows db).map (run.flagOf db) ++ [.keepOnly (run.noisy db)]

/-- `detect_nondeterministic`. -/
def program (run : DetectRun) (db : Db) : List DetectStatement :=
  run.writes db ++ (run.changes db).map .request

/-- What a run leaves after some of its statements. -/
def interrupted (run : DetectRun) (executed : Nat) (db : Db) : Db :=
  runAll (DetectStatement.exec run.now) ((run.program db).take executed) db

/-- What a run that completes leaves. -/
def complete (run : DetectRun) (db : Db) : Db :=
  runAll (DetectStatement.exec run.now) (run.program db) db

end DetectRun

section Statements

variable {now : Int} {db : Db}

private theorem probe_exec (statement : DetectStatement) :
    (statement.exec now db).probe = db.probe := by
  cases statement with
  | flag deployment total divergent sample => rfl
  | keepOnly deployments => rfl
  | request deployment => rfl

/-- Flagging a deployment flags it and no other. -/
theorem flagged_exec_flag {deployment other : String} {total divergent : Nat}
    {sample : List String} :
    ((DetectStatement.flag deployment total divergent sample).exec now db).flagged other ↔
      db.flagged other ∨ other = deployment := by
  simp [Db.flagged, DetectStatement.exec, Table.holds_upsert, DetectStatement.flagRow]

/-- Clearing keeps the flags of the listed deployments alone. -/
theorem flagged_exec_keepOnly {deployments : List String} {other : String} :
    ((DetectStatement.keepOnly deployments).exec now db).flagged other ↔
      db.flagged other ∧ other ∈ deployments := by
  rw [Db.flagged_iff, Db.flagged_iff, DetectStatement.exec]
  constructor
  · rintro ⟨row, member, rfl⟩
    obtain ⟨old, kept⟩ := Table.mem_deleteWhere.mp member
    exact ⟨⟨row, old, rfl⟩, by simpa using kept⟩
  · rintro ⟨⟨row, old, rfl⟩, kept⟩
    exact ⟨row, Table.mem_deleteWhere.mpr ⟨old, by simpa using kept⟩, rfl⟩

private theorem nondeterministic_exec_request {deployment : String} :
    ((DetectStatement.request deployment).exec now db).nondeterministic = db.nondeterministic :=
  rfl

/-- A request in the queue stays there. -/
theorem grows_exec (statement : DetectStatement) :
    db.qosReroll.Grows (statement.exec now db).qosReroll := by
  cases statement with
  | flag deployment total divergent sample => exact Serial.Grows.refl _
  | keepOnly deployments => exact Serial.Grows.refl _
  | request deployment => exact RerollQueue.grows_enqueue

private theorem probe_runAll (program : List DetectStatement) :
    (runAll (DetectStatement.exec now) program db).probe = db.probe :=
  runAll_frame Db.probe fun statement _ _ => probe_exec statement

/-- A program only adds re-roll requests. -/
theorem grows_runAll (program : List DetectStatement) :
    db.qosReroll.Grows (runAll (DetectStatement.exec now) program db).qosReroll :=
  runAll_preserves (fun reached : Db => db.qosReroll.Grows reached.qosReroll) (Serial.Grows.refl _)
    fun statement _ _ grown => grown.trans (grows_exec statement)

/-- Flags accumulate. -/
theorem flagged_runAll_flags (rows : List NoisyRow) (sample : NoisyRow → List String)
    {other : String} :
    (runAll (DetectStatement.exec now)
      (rows.map fun row => .flag row.deploymentId row.total row.divergent (sample row)) db).flagged
        other ↔ db.flagged other ∨ other ∈ rows.map NoisyRow.deploymentId := by
  induction rows generalizing db with
  | nil => simp
  | cons row rest ih =>
    rw [List.map_cons, runAll_cons, ih, flagged_exec_flag, List.map_cons, List.mem_cons, or_assoc]

private theorem nondeterministic_runAll_requests (deployments : List String) :
    (runAll (DetectStatement.exec now) (deployments.map .request) db).nondeterministic =
      db.nondeterministic := by
  apply runAll_frame Db.nondeterministic
  intro statement member state
  obtain ⟨deployment, _, rfl⟩ := List.mem_map.mp member
  exact nondeterministic_exec_request

/-- New requests are for the deployments asked for. -/
theorem mem_qosReroll_requests (deployments : List String) {request : RerollRow}
    (member : request ∈ (runAll (DetectStatement.exec now) (deployments.map .request) db).qosReroll) :
    request ∈ db.qosReroll ∨ ∃ deployment ∈ deployments, request.deploymentId = some deployment := by
  induction deployments generalizing db with
  | nil => exact Or.inl member
  | cons deployment rest ih =>
    rcases ih member with earlier | ⟨other, later, same⟩
    · rcases RerollQueue.mem_enqueue earlier with old | ⟨_, same⟩
      · exact Or.inl old
      · exact Or.inr ⟨deployment, List.mem_cons_self, same⟩
    · exact Or.inr ⟨other, List.mem_cons_of_mem _ later, same⟩

/-- A deployment with a probe that is asked for has a new request over all its probes. -/
theorem exists_request_of_asked (now : Int) {deployments : List String} {deployment : String}
    (asked : deployment ∈ deployments) {p : ProbeRow} (probed : p ∈ db.probe)
    (ofDeployment : p.deploymentId = deployment) :
    ∃ request ∈ (runAll (DetectStatement.exec now) (deployments.map .request) db).qosReroll,
      db.qosReroll.next ≤ request.id ∧ RequestsAll db deployment request := by
  induction deployments generalizing db with
  | nil => cases asked
  | cons head rest ih =>
    rw [List.map_cons, runAll_cons]
    rcases List.mem_cons.mp asked with rfl | later
    · obtain ⟨request, member, id, all⟩ := exists_requestDeploymentReroll probed ofDeployment
      exact ⟨request, (grows_runAll _).kept request member, Nat.le_of_eq id.symm, all⟩
    · obtain ⟨request, member, id, all⟩ :=
        @ih ((DetectStatement.request head).exec now db) later probed
      exact ⟨request, member, Nat.le_trans (grows_exec _).next_le id, all⟩

end Statements

/-- Whether a run that executed so many statements changed the flag of a deployment. -/
def DetectRun.Changed (run : DetectRun) (executed : Nat) (db : Db) (deployment : String) : Prop :=
  db.flagged deployment = false ∧
      deployment ∈ ((run.rows db).take executed).map NoisyRow.deploymentId ∨
    db.flagged deployment ∧ (run.rows db).length < executed ∧ deployment ∉ run.noisy db

/-- Whether it came as far as the request for a deployment. -/
def DetectRun.Asked (run : DetectRun) (executed : Nat) (db : Db) (deployment : String) : Prop :=
  deployment ∈ (run.changes db).take (executed - (run.writes db).length)

section Interrupted

variable {run : DetectRun} {db : Db}

private theorem interrupted_eq (executed : Nat) :
    run.interrupted executed db =
      runAll (DetectStatement.exec run.now)
        (((run.changes db).take (executed - (run.writes db).length)).map .request)
        (runAll (DetectStatement.exec run.now) ((run.writes db).take executed) db) := by
  rw [DetectRun.interrupted, DetectRun.program, List.take_append, runAll_append, List.map_take]

/-- The flags after an interrupted run: more of them until the last one is written, then
exactly the noisy deployments'. -/
theorem flagged_interrupted (executed : Nat) (deployment : String) :
    (run.interrupted executed db).flagged deployment ↔
      if executed ≤ (run.rows db).length then
        db.flagged deployment ∨
          deployment ∈ ((run.rows db).take executed).map NoisyRow.deploymentId
      else deployment ∈ run.noisy db := by
  have untouched : (run.interrupted executed db).flagged deployment =
      (runAll (DetectStatement.exec run.now) ((run.writes db).take executed) db).flagged
        deployment := by
    rw [interrupted_eq, Db.flagged, nondeterministic_runAll_requests]
    rfl
  rw [untouched]
  split
  · rename_i inside
    rw [DetectRun.writes, List.take_append_of_le_length (by simpa using inside), ← List.map_take]
    exact flagged_runAll_flags _ fun row => sampleDivergentFields run.now db row.deploymentId
  · rename_i past
    rw [List.take_of_length_le (by simp only [DetectRun.writes, List.length_append,
      List.length_map, List.length_singleton]; omega), DetectRun.writes, runAll_concat,
      flagged_exec_keepOnly]
    constructor
    · exact And.right
    · intro noisy
      refine ⟨?_, noisy⟩
      apply (flagged_runAll_flags _ fun row =>
        sampleDivergentFields run.now db row.deploymentId).mpr
      exact Or.inr noisy

/-- A cut run has changed a flag when the statement for it was executed. -/
theorem flagged_interrupted_ne_iff (executed : Nat) (deployment : String) :
    (run.interrupted executed db).flagged deployment ≠ db.flagged deployment ↔
      run.Changed executed db deployment := by
  have after : (run.interrupted executed db).flagged deployment ↔ _ :=
    flagged_interrupted executed deployment
  rw [Ne, Bool.eq_iff_iff, after]
  unfold DetectRun.Changed
  by_cases inside : executed ≤ (run.rows db).length
  · have notPast : ¬ (run.rows db).length < executed := Nat.not_lt.mpr inside
    by_cases before : db.flagged deployment <;> simp [inside, notPast, before]
  · have past : (run.rows db).length < executed := Nat.lt_of_not_le inside
    have all : (run.rows db).take executed = run.rows db := List.take_of_length_le (by omega)
    by_cases before : db.flagged deployment <;>
      simp [inside, past, all, before, DetectRun.noisy]

/-- A run changes the flags that are no longer noisy, and those that newly are. -/
theorem mem_changes {deployment : String} :
    deployment ∈ run.changes db ↔
      db.flagged deployment ∧ deployment ∉ run.noisy db ∨
        deployment ∈ run.noisy db ∧ db.flagged deployment = false := by
  rw [DetectRun.changes, IterOrder.mem_arrange, symmetricDifference, List.mem_append,
    List.mem_filter, List.mem_filter]
  have flagged : deployment ∈ db.nondeterministic.rows.map NondeterministicRow.deploymentId ↔
      db.flagged deployment := by
    simp [Db.flagged, Table.holds]
  simp [flagged]

end Interrupted

/-- A request over all probes of a deployment, enqueued under an id the queue had not reached. -/
def Requested (db : Db) (since : Nat) (deployment : String) : Prop :=
  ∃ request ∈ db.qosReroll, since ≤ request.id ∧ RequestsAll db deployment request

/-- Every deployment with probes whose flag differs before and after has been requested
since. -/
def NothingLost (before after final : Db) : Prop :=
  ∀ deployment, after.flagged deployment ≠ before.flagged deployment →
    (∃ p ∈ before.probe, p.deploymentId = deployment) →
    Requested final before.qosReroll.next deployment

/-- Runs that all complete. -/
def completeAll (later : List DetectRun) (db : Db) : Db :=
  later.foldl (fun db run => run.complete db) db

/-- None of the runs loses a change of its own. -/
def LaterLoseNothing : List DetectRun → Db → Db → Prop
  | [], _, _ => True
  | run :: rest, db, final =>
    NothingLost db (run.complete db) final ∧ LaterLoseNothing rest (run.complete db) final

/-- The failed run changed no flag, of a deployment with probes, that it did not come to ask
a reroll for. -/
def DetectRun.Harmless (run : DetectRun) (executed : Nat) (db : Db) : Prop :=
  ∀ deployment, (∃ p ∈ db.probe, p.deploymentId = deployment) →
    run.Changed executed db deployment → run.Asked executed db deployment

section Lost

variable {run : DetectRun} {db : Db}

private theorem probe_interrupted (executed : Nat) :
    (run.interrupted executed db).probe = db.probe :=
  probe_runAll _

/-- A complete run is one cut behind its last statement. -/
theorem complete_eq : run.complete db = run.interrupted (run.program db).length db := by
  rw [DetectRun.complete, DetectRun.interrupted, List.take_length]

/-- The statements before the requests leave the queue alone. -/
theorem qosReroll_writes (executed : Nat) :
    (runAll (DetectStatement.exec run.now) ((run.writes db).take executed) db).qosReroll =
      db.qosReroll := by
  apply runAll_frame Db.qosReroll
  intro statement member state
  rcases List.mem_append.mp (List.mem_of_mem_take member) with flag | keep
  · obtain ⟨row, _, rfl⟩ := List.mem_map.mp flag
    rfl
  · rw [List.mem_singleton.mp keep]
    rfl

/-- What a run adds to the queue, it asked for. -/
theorem mem_qosReroll_interrupted {executed : Nat} {request : RerollRow}
    (member : request ∈ (run.interrupted executed db).qosReroll) :
    request ∈ db.qosReroll ∨
      ∃ deployment, run.Asked executed db deployment ∧
        request.deploymentId = some deployment := by
  rw [interrupted_eq] at member
  rcases mem_qosReroll_requests _ member with old | asked
  · rw [qosReroll_writes] at old
    exact Or.inl old
  · exact Or.inr asked

/-- What a run asked for before it stopped is what it added to the queue. -/
theorem requested_interrupted_iff {executed : Nat} {deployment : String}
    (probed : ∃ p ∈ db.probe, p.deploymentId = deployment) :
    Requested (run.interrupted executed db) db.qosReroll.next deployment ↔
      run.Asked executed db deployment := by
  constructor
  · rintro ⟨request, member, recent, named, _⟩
    rcases mem_qosReroll_interrupted member with old | ⟨other, asked, same⟩
    · exact absurd (db.qosReroll.below request old) (Nat.not_lt.mpr recent)
    · rw [named] at same
      exact Option.some.inj same ▸ asked
  · intro asked
    obtain ⟨p, probed, ofDeployment⟩ := probed
    have probes : (runAll (DetectStatement.exec run.now) ((run.writes db).take executed) db).probe =
        db.probe := probe_runAll _
    obtain ⟨request, member, recent, named, all⟩ :=
      exists_request_of_asked run.now asked (probes ▸ probed) ofDeployment
    rw [qosReroll_writes] at recent
    rw [← interrupted_eq] at member
    exact ⟨request, member, recent, named, by rwa [probe_interrupted, ← probes]⟩

/-- A cut loses nothing yet exactly when it is harmless. -/
theorem nothingLost_interrupted_iff (executed : Nat) :
    NothingLost db (run.interrupted executed db) (run.interrupted executed db) ↔
      run.Harmless executed db := by
  unfold NothingLost DetectRun.Harmless
  constructor
  · intro kept deployment probed changed
    exact (requested_interrupted_iff probed).mp
      (kept deployment ((flagged_interrupted_ne_iff executed deployment).mpr changed) probed)
  · intro harmless deployment changed probed
    exact (requested_interrupted_iff probed).mpr
      (harmless deployment probed ((flagged_interrupted_ne_iff executed deployment).mp changed))

/-- A run that completes asks for everything it changed. -/
theorem harmless_complete : run.Harmless (run.program db).length db := by
  intro deployment _ changed
  have all : (run.changes db).take ((run.program db).length - (run.writes db).length) =
      run.changes db := by
    apply List.take_of_length_le
    simp [DetectRun.program]
  rw [DetectRun.Asked, all, mem_changes]
  rcases changed with ⟨before, noisy⟩ | ⟨before, _, quiet⟩
  · refine Or.inr ⟨?_, before⟩
    obtain ⟨row, member, rfl⟩ := List.mem_map.mp noisy
    exact List.mem_map_of_mem (List.mem_of_mem_take member)
  · exact Or.inl ⟨before, quiet⟩

/-- Requests outlive later runs. -/
theorem requested_completeAll (later : List DetectRun) {since : Nat} {deployment : String}
    (requested : Requested db since deployment) :
    Requested (completeAll later db) since deployment := by
  induction later generalizing db with
  | nil => exact requested
  | cons run rest ih =>
    obtain ⟨request, member, id, named, all⟩ := requested
    have probes : (run.complete db).probe = db.probe := probe_runAll _
    exact ih ⟨request, (grows_runAll _).kept request member, id, named, probes ▸ all⟩

/-- Complete runs lose no change of a flag. -/
theorem laterLoseNothing (later : List DetectRun) :
    LaterLoseNothing later db (completeAll later db) := by
  induction later generalizing db with
  | nil => trivial
  | cons run rest ih =>
    refine ⟨?_, ih⟩
    intro deployment changed probed
    have requested := (nothingLost_interrupted_iff _).mpr harmless_complete deployment
      (complete_eq ▸ changed) probed
    rw [← complete_eq] at requested
    exact requested_completeAll rest requested

/-- Which deployments are noisy does not depend on which are flagged. -/
theorem noisyRows_congr {now : Int} {other : Db} (probe : other.probe = db.probe)
    (observation : other.observation = db.observation)
    (divergence : other.divergence = db.divergence)
    (allocationMap : other.allocationMap = db.allocationMap) :
    noisyRows now other = noisyRows now db := by
  obtain ⟨probe', observation', divergence', allocationMap', nondeterministic, qos, queue⟩ := other
  simp only at probe observation divergence allocationMap
  subst probe observation divergence allocationMap
  simp only [noisyRows, judgedProbes, Bool.false_and, Bool.not_false, Bool.and_true]
  rfl

/-- The flag of a deployment is what a run at that time would make it. -/
def Settled (now : Int) (db : Db) (deployment : String) : Prop :=
  db.flagged deployment ↔ deployment ∈ (noisyRows now db).map NoisyRow.deploymentId

/-- A run finds noisy what the query returns at its time. -/
theorem mem_noisy {deployment : String} :
    deployment ∈ run.noisy db ↔
      deployment ∈ (noisyRows run.now db).map NoisyRow.deploymentId := by
  simp [DetectRun.noisy, DetectRun.rows]

/-- A cut run does not change what the next one finds noisy. -/
theorem noisyRows_interrupted (now : Int) (executed : Nat) :
    noisyRows now (run.interrupted executed db) = noisyRows now db := by
  have frame : ∀ statement : DetectStatement, ∀ state : Db,
      ((statement.exec run.now state).probe, (statement.exec run.now state).observation,
        (statement.exec run.now state).divergence, (statement.exec run.now state).allocationMap) =
      (state.probe, state.observation, state.divergence, state.allocationMap) := by
    intro statement state
    cases statement with
    | flag deployment total divergent sample => rfl
    | keepOnly deployments => rfl
    | request deployment => rfl
  have same : ((run.interrupted executed db).probe, (run.interrupted executed db).observation,
      (run.interrupted executed db).divergence, (run.interrupted executed db).allocationMap) =
      (db.probe, db.observation, db.divergence, db.allocationMap) :=
    runAll_frame (fun reached : Db => (reached.probe, reached.observation, reached.divergence,
      reached.allocationMap)) fun statement _ state => frame statement state
  simp only [Prod.mk.injEq] at same
  exact noisyRows_congr same.1 same.2.1 same.2.2.1 same.2.2.2

/-- A changed flag is already what the next run at the same time would make it. -/
theorem settled_of_changed {executed : Nat} {deployment : String}
    (changed : run.Changed executed db deployment) :
    Settled run.now (run.interrupted executed db) deployment := by
  rw [Settled, noisyRows_interrupted, ← mem_noisy, flagged_interrupted]
  rcases changed with ⟨before, noisy⟩ | ⟨_, past, quiet⟩
  · have isNoisy : deployment ∈ run.noisy db := by
      obtain ⟨row, member, rfl⟩ := List.mem_map.mp noisy
      exact List.mem_map_of_mem (List.mem_of_mem_take member)
    split
    · exact iff_of_true (Or.inr noisy) isNoisy
    · exact Iff.rfl
  · rw [if_neg (Nat.not_le.mpr past)]

/-- A run asks nothing for a settled deployment, and leaves it settled. -/
theorem not_asked_of_settled {deployment : String} (settled : Settled run.now db deployment) :
    ¬ run.Asked (run.program db).length db deployment ∧
      Settled run.now (run.complete db) deployment := by
  rw [Settled, ← mem_noisy] at settled
  constructor
  · intro asked
    rcases mem_changes.mp (List.mem_of_mem_take asked) with ⟨flagged, quiet⟩ | ⟨noisy, unflagged⟩
    · exact quiet (settled.mp flagged)
    · exact absurd (settled.mpr noisy) (by simp [unflagged])
  · by_cases changed : run.Changed (run.program db).length db deployment
    · rw [complete_eq]
      exact settled_of_changed changed
    · rw [← flagged_interrupted_ne_iff, not_not, ← complete_eq] at changed
      rw [Settled, changed, complete_eq, noisyRows_interrupted, ← mem_noisy]
      exact settled

/-- What a failure lost, no later run at the same time asks for. -/
theorem not_requested_completeAll (later : List DetectRun) {now : Int} {since : Nat}
    {deployment : String} (still : ∀ other ∈ later, other.now = now)
    (settled : Settled now db deployment) (lost : ¬ Requested db since deployment) :
    ¬ Requested (completeAll later db) since deployment := by
  induction later generalizing db with
  | nil => exact lost
  | cons next rest ih =>
    obtain rfl := still next List.mem_cons_self
    obtain ⟨notAsked, settledAfter⟩ := not_asked_of_settled settled
    apply ih (fun other member => still other (List.mem_cons_of_mem _ member)) settledAfter
    rintro ⟨request, member, recent, named, all⟩
    have probes : (next.complete db).probe = db.probe := probe_runAll _
    change request ∈ (next.complete db).qosReroll at member
    change ∀ p ∈ (next.complete db).probe, _ at all
    rw [complete_eq] at member
    rcases mem_qosReroll_interrupted member with old | ⟨other, asked, same⟩
    · exact lost ⟨request, old, recent, named, probes ▸ all⟩
    · rw [named] at same
      exact notAsked (Option.some.inj same ▸ asked)

/-- After a run that failed and any number of runs that complete, every changed flag has its
request if and only if the failure was harmless; and when it was not, no number of runs over
the same probes repairs it. -/
theorem nothing_lost_iff_harmless (run : DetectRun) (executed : Nat) (db : Db) :
    ((∀ later : List DetectRun,
      NothingLost db (run.interrupted executed db)
          (completeAll later (run.interrupted executed db)) ∧
        LaterLoseNothing later (run.interrupted executed db)
          (completeAll later (run.interrupted executed db))) ↔
      run.Harmless executed db) ∧
    (¬ run.Harmless executed db → ∀ later : List DetectRun,
      (∀ other ∈ later, other.now = run.now) →
        ¬ NothingLost db (run.interrupted executed db)
          (completeAll later (run.interrupted executed db))) := by
  refine ⟨⟨?_, ?_⟩, ?_⟩
  · intro always
    exact (nothingLost_interrupted_iff executed).mp (always []).1
  · intro harmless later
    refine ⟨?_, laterLoseNothing later⟩
    intro deployment changed probed
    exact requested_completeAll later
      ((nothingLost_interrupted_iff executed).mpr harmless deployment changed probed)
  · intro harmful later still nothingLost
    apply harmful
    intro deployment probed changed
    by_contra notAsked
    rw [← requested_interrupted_iff probed] at notAsked
    exact not_requested_completeAll later still (settled_of_changed changed) notAsked
      (nothingLost deployment ((flagged_interrupted_ne_iff executed deployment).mpr changed) probed)

end Lost

section Samples

/-- A flagged deployment with one probe and nothing to keep it flagged. -/
def clearedDb : Db :=
  { Db.empty with
    probe := Table.empty.insertNew ⟨1, "Qm", "0x00", 7, "q", "Q_byid", "", 0⟩
    nondeterministic := Table.empty.insertNew ⟨"Qm", 3, 3, 1, [], 0, 0⟩ }

def sampleRun : DetectRun := ⟨0, IterOrder.asInserted, IterOrder.asInserted⟩

/-- A cut after the flags are cleared loses their re-roll requests for good. -/
theorem cleared_flag_lost :
    ¬ ∀ (run : DetectRun) (executed : Nat) (db : Db) (later : List DetectRun),
      NothingLost db (run.interrupted executed db)
        (completeAll later (run.interrupted executed db)) := by
  intro always
  -- The delete is executed, the request is not; two more runs complete.
  have nothingLost := always sampleRun 1 clearedDb [sampleRun, sampleRun]
  obtain ⟨request, member, _⟩ := nothingLost "Qm" (by decide)
    ⟨⟨1, "Qm", "0x00", 7, "q", "Q_byid", "", 0⟩,
      Table.mem_insertNew.mpr (Or.inr ⟨by decide, rfl⟩), rfl⟩
  have empty : (completeAll [sampleRun, sampleRun]
      (sampleRun.interrupted 1 clearedDb)).qosReroll.table.rows = [] := by decide
  rw [← Serial.mem_table, ← Table.mem_rows, empty] at member
  cases member

end Samples

end Foghorn.Probe
