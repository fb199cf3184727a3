import Mathlib.Algebra.Order.Field.Basic
import Mathlib.Algebra.Order.Field.Rat
import Mathlib.Algebra.Order.BigOperators.Group.List
import Mathlib.Algebra.BigOperators.Ring.List
import Mathlib.Data.Rat.Floor
import Mathlib.Tactic.Linarith
import Foghorn.Probe.Scorer
import Foghorn.Std.IpText

/-!
# Ingesting the profiles

A pass writes the roster first and the measurements of each listed indexer after it, in the
order in which the requests of a chunk are answered. The two write different columns of one
row, and either may stop or fail on its own. Each column of a profile is what was written to it
last, because no measurement is ever written before its row is there.
-/

namespace Foghorn.Probe

open Foghorn.Std Foghorn.Core

/-- An indexer of `/api/indexers-enriched`. -/
structure EnrichedIndexer where
  id : String
  ensName : Option String
  url : Option String
  createdAt : Option Int
  selfStakeGrt : Option ℚ
  delegatedGrt : Option ℚ
  allocationCount : Option Int
  queryFeesCollectedGrt : Option ℚ
  reoStatus : Option String
  reoSource : Option String
  score : Option ℚ
  scoreGrade : Option String

/-- A day of `/api/indexer-qos/{address}`. -/
structure QosPoint where
  queryCount : ℚ
  successRate : ℚ
  latencyMs : ℚ
  blocksBehind : ℚ

structure QosAggregate where
  queryCount : Int
  successRate : Option ℚ
  latencyMs : Option ℚ
  blocksBehind : Option ℚ
deriving DecidableEq

def QosAggregate.default : QosAggregate := ⟨0, none, none, none⟩

/-- `f64::round`, half away from zero, and the cast that saturates. -/
def roundAsI64 (value : ℚ) : Int :=
  let rounded := if 0 ≤ value then ⌊value + 1 / 2⌋ else -⌊-value + 1 / 2⌋
  max (-(2 ^ 63)) (min (2 ^ 63 - 1) rounded)

/-- A day without queries still counts as one. -/
def QosPoint.weight (point : QosPoint) : ℚ := max point.queryCount 1

/-- What the loop makes of a reading: its mean by weight, if anything weighs. The numbers are exact
where the code has `f64`. -/
def weightedMean (reading : QosPoint → ℚ) (points : List QosPoint) : Option ℚ :=
  let total := (points.map QosPoint.weight).sum
  if 0 < total then some ((points.map fun point => reading point * point.weight).sum / total)
  else none

def aggregateQos (points : List QosPoint) (windowDays : Nat) : QosAggregate :=
  let tail := points.drop (points.length - windowDays)
  if tail = [] then .default
  else
    { queryCount := roundAsI64 (tail.map QosPoint.queryCount).sum
      successRate := weightedMean QosPoint.successRate tail
      latencyMs := weightedMean QosPoint.latencyMs tail
      blocksBehind := weightedMean QosPoint.blocksBehind tail }

def qosWindowDays : Nat := 30

def qosConcurrency : Nat := 6

section Aggregate

variable {reading : QosPoint → ℚ} {points : List QosPoint}

private theorem weight_pos (point : QosPoint) : 0 < point.weight :=
  lt_of_lt_of_le one_pos (le_max_right _ _)

private theorem total_pos (occupied : points ≠ []) : 0 < (points.map QosPoint.weight).sum := by
  apply List.sum_pos
  · intro weight member
    obtain ⟨point, -, rfl⟩ := List.mem_map.mp member
    exact weight_pos point
  · simpa using occupied

/-- A bound of every reading bounds the weighted sum. -/
theorem weighted_sum_le {bound : ℚ} (bounded : ∀ point ∈ points, reading point ≤ bound) :
    (points.map fun point => reading point * point.weight).sum ≤
      bound * (points.map QosPoint.weight).sum := by
  rw [← List.sum_map_mul_left]
  apply List.sum_le_sum
  intro point member
  exact mul_le_mul_of_nonneg_right (bounded point member) (weight_pos point).le

private theorem le_weighted_sum {bound : ℚ} (bounded : ∀ point ∈ points, bound ≤ reading point) :
    bound * (points.map QosPoint.weight).sum ≤
      (points.map fun point => reading point * point.weight).sum := by
  rw [← List.sum_map_mul_left]
  apply List.sum_le_sum
  intro point member
  exact mul_le_mul_of_nonneg_right (bounded point member) (weight_pos point).le

/-- The exact mean lies between any bounds of the readings. -/
theorem weightedMean_between {low high : ℚ}
    (bounded : ∀ point ∈ points, low ≤ reading point ∧ reading point ≤ high)
    (occupied : points ≠ []) :
    ∃ mean, weightedMean reading points = some mean ∧ low ≤ mean ∧ mean ≤ high := by
  have positive := total_pos occupied
  refine ⟨_, if_pos positive, ?_, ?_⟩
  · rw [le_div_iff₀ positive]
    exact le_weighted_sum fun point member => (bounded point member).1
  · rw [div_le_iff₀ positive]
    exact weighted_sum_le fun point member => (bounded point member).2

end Aggregate

/-- The columns that the roster writes. -/
structure RosterColumns where
  ensName : Option String
  url : Option String
  createdAt : Option Int
  selfStakeGrt : Option ℚ
  delegatedGrt : Option ℚ
  allocationCount : Option Int
  queryFeesCollectedGrt : Option ℚ
  reoStatus : Option String
  reoSource : Option String
  lodestarScore : Option ℚ
  lodestarGrade : Option String
deriving DecidableEq

/-- The columns that the measurements write. -/
structure QosColumns where
  queryCount : Option Int
  successRate : Option ℚ
  latencyMs : Option ℚ
  blocksBehind : Option ℚ
deriving DecidableEq

def QosColumns.unwritten : QosColumns := ⟨none, none, none, none⟩

/-- `indexer_profile`. -/
structure IndexerProfile where
  indexerAddress : String
  roster : RosterColumns
  qos : QosColumns
  ingestedAt : Int
deriving DecidableEq

abbrev IndexerProfiles := Table IndexerProfile String IndexerProfile.indexerAddress

/-- What `load_profiles` selects of a row. -/
def IndexerProfile.scored (row : IndexerProfile) : ProfileRow where
  indexerAddress := row.indexerAddress
  profile :=
    { ensName := row.roster.ensName
      selfStakeGrt := row.roster.selfStakeGrt
      allocationCount := row.roster.allocationCount
      qosSuccessRate := row.qos.successRate
      qosBlocksBehind := row.qos.blocksBehind
      qosQueryCount := row.qos.queryCount
      reoStatus := row.roster.reoStatus }

def IndexerProfiles.scored (table : IndexerProfiles) : ProfileTable where
  rows := table.rows.map IndexerProfile.scored
  unique := by
    rw [List.map_map]
    exact table.unique

def EnrichedIndexer.columns (listed : EnrichedIndexer) : RosterColumns where
  ensName := listed.ensName
  url := listed.url
  createdAt := listed.createdAt
  selfStakeGrt := listed.selfStakeGrt
  delegatedGrt := listed.delegatedGrt
  allocationCount := listed.allocationCount
  queryFeesCollectedGrt := listed.queryFeesCollectedGrt
  reoStatus := listed.reoStatus
  reoSource := listed.reoSource
  lodestarScore := listed.score
  lodestarGrade := listed.scoreGrade

def QosAggregate.columns (aggregate : QosAggregate) : QosColumns where
  queryCount := some aggregate.queryCount
  successRate := aggregate.successRate
  latencyMs := aggregate.latencyMs
  blocksBehind := aggregate.blocksBehind

inductive ProfileStatement where
  | upsertRoster (address : String) (columns : RosterColumns)
  | updateQos (address : String) (columns : QosColumns)

namespace ProfileStatement

/-- A statement executed at a time. -/
def exec : Int × ProfileStatement → IndexerProfiles → IndexerProfiles
  | (now, .upsertRoster address columns), table =>
    table.upsert ⟨address, columns, .unwritten, now⟩
      (fun old => { old with roster := columns, ingestedAt := now }) (fun _ same => same)
  | (now, .updateQos address columns), table =>
    table.updateWhere (fun row => row.indexerAddress = address)
      (fun old => { old with qos := columns, ingestedAt := now }) (fun _ => rfl)

def address : ProfileStatement → String
  | .upsertRoster address _ => address
  | .updateQos address _ => address

def rosterOf : ProfileStatement → Option RosterColumns
  | .upsertRoster _ columns => some columns
  | .updateQos _ _ => none

def qosOf : ProfileStatement → Option QosColumns
  | .upsertRoster _ _ => none
  | .updateQos _ columns => some columns

end ProfileStatement

/-- One call of `run_ingest_once`. -/
structure LodestarPass where
  /-- The enriched roster, unless it could not be fetched. -/
  roster : Option (List EnrichedIndexer)
  /-- The days that a request is answered with, unless it fails. -/
  qos : Nat → Option (List QosPoint)
  /-- Requests whose update the database refuses. -/
  refused : Nat → Bool
  /-- The order in which the tasks of a chunk are joined. -/
  joined : Nat → IterOrder (String × Option QosAggregate)
  clock : Nat → Int
  /-- After how many statements the pass failed or was killed, if it was. -/
  stop : Option Nat

namespace LodestarPass

variable (crates : Crates) (pass : LodestarPass)

/-- The addresses of the roster, in lower case and without the empty ones. -/
def observed : List String :=
  ((pass.roster.getD []).map fun listed => crates.lowercase listed.id).filter (· ≠ "")

def rosterStatements : List ProfileStatement :=
  ((pass.roster.getD []).filter fun listed => crates.lowercase listed.id ≠ "").map fun listed =>
    .upsertRoster (crates.lowercase listed.id) listed.columns

/-- What is stored of the answer to a request. -/
def answerAt (request : Nat) : Option QosAggregate :=
  if pass.refused request then none
  else (pass.qos request).map fun points => aggregateQos points qosWindowDays

/-- The address of each request, with what is stored of its answer. -/
def requests : List (String × Option QosAggregate) :=
  (pass.observed crates).zipIdx.map fun request => (request.1, pass.answerAt request.2)

/-- The answers, chunk after chunk, as they are joined. -/
def answers : List (String × Option QosAggregate) :=
  ((chunksOf qosConcurrency (pass.requests crates).length (pass.requests crates)).mapIdx
    fun n chunk => (pass.joined n).arrange chunk).flatten

def qosStatements : List ProfileStatement :=
  (pass.answers crates).filterMap fun answer =>
    answer.2.map fun aggregate => .updateQos answer.1 aggregate.columns

def program : List ProfileStatement := pass.rosterStatements crates ++ pass.qosStatements crates

/-- The statements that were executed, with their times. -/
def written : List (Int × ProfileStatement) :=
  let stamped := (pass.program crates).mapIdx fun n statement => (pass.clock n, statement)
  match pass.stop with
  | none => stamped
  | some executed => stamped.take executed

/-- `run_ingest_once`, as far as it comes. -/
def run (table : IndexerProfiles) : IndexerProfiles :=
  runAll ProfileStatement.exec (pass.written crates) table

/-- What the pass returns: how many were listed and how many measured. -/
def result : Option (Nat × Nat) :=
  match pass.roster, pass.stop with
  | some listed, none => some (listed.length, (pass.qosStatements crates).length)
  | _, _ => none

end LodestarPass

/-- The profiles after passes one after the other, from none. -/
def ingested (crates : Crates) (passes : List LodestarPass) : IndexerProfiles :=
  passes.foldl (fun table pass => pass.run crates table) Table.empty

section Written

/-- What the last statement about an address that writes some columns writes to them. -/
def lastWritten {β : Type} (part : Int × ProfileStatement → Option β)
    (writes : List (Int × ProfileStatement)) (address : String) : Option β :=
  ((writes.filter fun write => write.2.address = address).filterMap part).getLast?

/-- The roster columns as last written. -/
def lastRoster : List (Int × ProfileStatement) → String → Option RosterColumns :=
  lastWritten fun write => write.2.rosterOf

/-- The measured columns as last written. -/
def lastQos : List (Int × ProfileStatement) → String → Option QosColumns :=
  lastWritten fun write => write.2.qosOf

def lastTime : List (Int × ProfileStatement) → String → Option Int :=
  lastWritten fun write => some write.1

variable {β : Type} {part : Int × ProfileStatement → Option β} {address : String}
  {writes earlier : List (Int × ProfileStatement)} {write : Int × ProfileStatement}

private theorem lastWritten_concat : lastWritten part (earlier ++ [write]) address =
    if write.2.address = address then (part write).or (lastWritten part earlier address)
    else lastWritten part earlier address := by
  unfold lastWritten
  by_cases about : write.2.address = address
  · rw [if_pos about, List.filter_append, List.filterMap_append, List.getLast?_append,
      List.filter_cons_of_pos (by simpa using about)]
    cases written : part write <;> simp [written]
  · rw [if_neg about, List.filter_append, List.filter_cons_of_neg (by simpa using about)]
    simp

private theorem isSome_lastWritten_iff : (lastWritten part writes address).isSome ↔
    ∃ write ∈ writes, write.2.address = address ∧ (part write).isSome := by
  rw [lastWritten, Option.isSome_iff_ne_none, Ne, List.getLast?_eq_none_iff,
    List.filterMap_eq_nil_iff]
  simp [Option.isSome_iff_ne_none]

private theorem isSome_lastRoster {entry : RosterColumns}
    (listed : ProfileStatement.upsertRoster address entry ∈ writes.map Prod.snd) :
    (lastRoster writes address).isSome := by
  obtain ⟨write, member, same⟩ := List.mem_map.mp listed
  exact isSome_lastWritten_iff.mpr ⟨write, member, by rw [same]; rfl, by rw [same]; rfl⟩

/-- Every measurement comes after a roster entry of its address. -/
def Anchored (statements : List ProfileStatement) : Prop :=
  ∀ before address columns after, statements = before ++ .updateQos address columns :: after →
    ∃ entry, .upsertRoster address entry ∈ before

/-- A program cut anywhere still updates only rows it wrote before. -/
theorem Anchored.prefix {statements other : List ProfileStatement} (anchored : Anchored statements)
    (cut : other <+: statements) : Anchored other := by
  obtain ⟨rest, rfl⟩ := cut
  rintro before address columns after rfl
  exact anchored before address columns (after ++ rest) (by simp)

/-- Programs one after the other still update only rows written before. -/
theorem Anchored.append {statements other : List ProfileStatement} (first : Anchored statements)
    (second : Anchored other) : Anchored (statements ++ other) := by
  intro before address columns after split
  rcases List.append_eq_append_iff.mp split with ⟨middle, rfl, later⟩ | ⟨middle, rfl, sooner⟩
  · obtain ⟨entry, there⟩ := second middle address columns after later
    exact ⟨entry, List.mem_append_right _ there⟩
  · cases middle with
    | nil =>
      obtain ⟨entry, there⟩ := second [] address columns after sooner.symm
      cases there
    | cons head tail =>
      rw [List.cons_append, List.cons.injEq] at sooner
      obtain ⟨rfl, -⟩ := sooner
      exact first before address columns tail rfl

/-- A statement about another address leaves the row of this one. -/
theorem lookup_exec_of_ne {table : IndexerProfiles} (other : write.2.address ≠ address) :
    (ProfileStatement.exec write table).lookup address = table.lookup address := by
  obtain ⟨now, statement⟩ := write
  cases statement with
  | upsertRoster about columns =>
    rw [ProfileStatement.exec, Table.lookup_upsert]
    exact if_neg (Ne.symm other)
  | updateQos about columns =>
    rw [ProfileStatement.exec, Table.lookup_updateWhere]
    cases found : table.lookup address with
    | none => rfl
    | some row =>
      have held : row.indexerAddress = address := Table.key_of_lookup found
      have apart : ¬ address = about := Ne.symm other
      simp [held, apart]

private theorem lookup_exec_upsertRoster {table : IndexerProfiles} {now : Int}
    {columns : RosterColumns} :
    (ProfileStatement.exec (now, .upsertRoster address columns) table).lookup address =
      some ⟨address, columns, ((table.lookup address).map IndexerProfile.qos).getD .unwritten, now⟩ := by
  rw [ProfileStatement.exec, Table.lookup_upsert, if_pos rfl]
  cases found : table.lookup address with
  | none => rfl
  | some row =>
    have held : row.indexerAddress = address := Table.key_of_lookup found
    simp [held]

private theorem lookup_exec_updateQos {table : IndexerProfiles} {now : Int} {columns : QosColumns} :
    (ProfileStatement.exec (now, .updateQos address columns) table).lookup address =
      (table.lookup address).map fun row => { row with qos := columns, ingestedAt := now } := by
  rw [ProfileStatement.exec, Table.lookup_updateWhere]
  cases found : table.lookup address with
  | none => rfl
  | some row =>
    have held : row.indexerAddress = address := Table.key_of_lookup found
    simp [held]

variable (address) in
/-- Without an entry there is no measurement, and with one there is a time. -/
theorem lastWritten_of_anchored (anchored : Anchored (writes.map Prod.snd)) :
    (lastRoster writes address = none → lastQos writes address = none) ∧
      ((lastRoster writes address).isSome → (lastTime writes address).isSome) := by
  constructor
  · intro unlisted
    by_contra measured
    obtain ⟨⟨now, statement⟩, member, about, writing⟩ :=
      isSome_lastWritten_iff.mp (Option.isSome_iff_ne_none.mpr measured)
    cases statement with
    | upsertRoster other columns => cases writing
    | updateQos other columns =>
      obtain rfl : other = address := about
      obtain ⟨before, after, split⟩ :=
        List.mem_iff_append.mp (List.mem_map_of_mem (f := Prod.snd) member)
      obtain ⟨entry, there⟩ := anchored before other columns after split
      have listed : (lastRoster writes other).isSome :=
        isSome_lastRoster (split ▸ List.mem_append_left _ there)
      rw [unlisted] at listed
      cases listed
  · intro listed
    obtain ⟨write, member, about, -⟩ := isSome_lastWritten_iff.mp listed
    exact isSome_lastWritten_iff.mpr ⟨write, member, about, rfl⟩

/-- The columns of a row are what was last written to them, and no measurement is lost. -/
theorem lookup_runAll_anchored (anchored : Anchored (writes.map Prod.snd)) :
    (runAll ProfileStatement.exec writes Table.empty).lookup address =
      (lastRoster writes address).bind fun columns => (lastTime writes address).map fun now =>
        ⟨address, columns, (lastQos writes address).getD .unwritten, now⟩ := by
  induction writes using List.reverseRecOn with
  | nil => rfl
  | append_singleton earlier last ih =>
    rw [List.map_append, List.map_singleton] at anchored
    have sound := anchored.prefix (List.prefix_append _ _)
    have before := ih sound
    obtain ⟨unmeasured, timed⟩ := lastWritten_of_anchored address sound
    rw [runAll_concat, lastRoster, lastQos, lastTime, lastWritten_concat, lastWritten_concat,
      lastWritten_concat, ← lastRoster, ← lastQos, ← lastTime]
    by_cases about : last.2.address = address
    · rw [if_pos about, if_pos about, if_pos about]
      obtain ⟨now, statement⟩ := last
      cases statement with
      | upsertRoster other columns =>
        obtain rfl : other = address := about
        rw [lookup_exec_upsertRoster, before]
        cases listed : lastRoster earlier other with
        | none => simp [unmeasured listed, ProfileStatement.rosterOf, ProfileStatement.qosOf]
        | some entry =>
          obtain ⟨time, at_time⟩ := Option.isSome_iff_exists.mp (timed (by rw [listed]; rfl))
          simp [at_time, ProfileStatement.rosterOf, ProfileStatement.qosOf]
      | updateQos other columns =>
        obtain rfl : other = address := about
        rw [lookup_exec_updateQos, before]
        cases listed : lastRoster earlier other with
        | none =>
          -- The update would miss, but its row is there.
          obtain ⟨entry, there⟩ := anchored _ other columns [] rfl
          have held := isSome_lastRoster there
          rw [listed] at held
          cases held
        | some entry =>
          obtain ⟨time, at_time⟩ := Option.isSome_iff_exists.mp (timed (by rw [listed]; rfl))
          simp [at_time, ProfileStatement.rosterOf, ProfileStatement.qosOf]
    · rw [if_neg about, if_neg about, if_neg about, lookup_exec_of_ne about, before]

end Written

section Passes

variable {crates : Crates} {pass : LodestarPass}

/-- Each request is answered once. -/
theorem answers_perm : (pass.answers crates).Perm (pass.requests crates) := by
  refine (flatten_mapIdx_arrange pass.joined _).trans ?_
  rw [flatten_chunksOf (by decide) le_rfl]

private theorem mem_observed_of_updateQos {address : String} {columns : QosColumns}
    (member : .updateQos address columns ∈ pass.qosStatements crates) :
    ∃ request aggregate, (pass.observed crates)[request]? = some address ∧
      pass.answerAt request = some aggregate ∧ columns = aggregate.columns := by
  obtain ⟨answer, answered, stored⟩ := List.mem_filterMap.mp member
  obtain ⟨aggregate, held, same⟩ := Option.map_eq_some_iff.mp stored
  obtain ⟨⟨asked, request⟩, listed, rfl⟩ := List.mem_map.mp (answers_perm.mem_iff.mp answered)
  cases same
  exact ⟨request, aggregate, List.mem_zipIdx_iff_getElem?.mp listed, held, rfl⟩

/-- A measurement is of an address of the roster, which was written before. -/
theorem anchored_program : Anchored (pass.program crates) := by
  intro before address columns after split
  have not_listed : ProfileStatement.updateQos address columns ∉ pass.rosterStatements crates := by
    simp [LodestarPass.rosterStatements]
  have whole : .updateQos address columns ∈ pass.program crates := split ▸ by simp
  have asked := (List.mem_append.mp whole).resolve_left not_listed
  obtain ⟨request, -, at_request, -, -⟩ := mem_observed_of_updateQos asked
  obtain ⟨mapped, occupied⟩ := List.mem_filter.mp (List.mem_of_getElem? at_request)
  obtain ⟨listed, member, rfl⟩ := List.mem_map.mp mapped
  have entry : ProfileStatement.upsertRoster (crates.lowercase listed.id) listed.columns ∈
      pass.rosterStatements crates :=
    List.mem_map_of_mem (List.mem_filter.mpr ⟨member, occupied⟩)
  refine ⟨listed.columns, ?_⟩
  -- The roster is written as a whole before the first measurement.
  rcases List.append_eq_append_iff.mp split with ⟨middle, rfl, -⟩ | ⟨middle, rosters, rest⟩
  · exact List.mem_append_left _ entry
  · rw [rosters] at entry not_listed
    cases middle with
    | nil => simpa using entry
    | cons head tail =>
      rw [List.cons_append, List.cons.injEq] at rest
      exact absurd (by simp [rest.1]) not_listed

/-- A pass executes a prefix of its program. -/
theorem written_prefix : (pass.written crates).map Prod.snd <+: pass.program crates := by
  have stamped : ((pass.program crates).mapIdx fun n statement => (pass.clock n, statement)).map
      Prod.snd = pass.program crates := by
    rw [List.mapIdx_eq_zipIdx_map, List.map_map]
    exact List.zipIdx_map_fst 0 _
  unfold LodestarPass.written
  cases pass.stop with
  | none => exact stamped.symm ▸ List.prefix_rfl
  | some executed =>
    rw [List.map_take, stamped]
    exact List.take_prefix _ _

private theorem anchored_written : Anchored ((pass.written crates).map Prod.snd) :=
  anchored_program.prefix written_prefix

variable (crates) in
/-- All statements that were executed in some passes. -/
def writtenBy (passes : List LodestarPass) : List (Int × ProfileStatement) :=
  passes.flatMap (LodestarPass.written crates)

variable {passes : List LodestarPass}

/-- Over any passes a QoS update finds the row its roster wrote. -/
theorem anchored_writtenBy : Anchored ((writtenBy crates passes).map Prod.snd) := by
  induction passes with
  | nil => simp [writtenBy, Anchored]
  | cons pass rest ih =>
    rw [writtenBy, List.flatMap_cons, List.map_append]
    exact anchored_written.append ih

/-- The ingested table is what the executed statements leave, one after the other. -/
theorem ingested_eq_runAll :
    ingested crates passes = runAll ProfileStatement.exec (writtenBy crates passes)
        Table.empty := by
  induction passes using List.reverseRecOn with
  | nil => rfl
  | append_singleton earlier pass ih =>
    have whole : writtenBy crates (earlier ++ [pass]) = writtenBy crates earlier ++ pass.written crates := by
      simp [writtenBy]
    rw [ingested, List.foldl_concat, ← ingested, ih, whole, runAll_append]
    rfl

/-- What stands in the measured columns is an answer to a request for that address. -/
theorem qos_of_mem_ingested {row : IndexerProfile} (member : row ∈ ingested crates passes) :
    row.qos = .unwritten ∨ ∃ pass ∈ passes, ∃ request points,
      (pass.observed crates)[request]? = some row.indexerAddress ∧ pass.qos request = some points ∧
        row.qos = (aggregateQos points qosWindowDays).columns := by
  have found := Table.lookup_of_mem member
  rw [ingested_eq_runAll, lookup_runAll_anchored anchored_writtenBy] at found
  obtain ⟨columns, -, timed⟩ := Option.bind_eq_some_iff.mp found
  obtain ⟨now, -, same⟩ := Option.map_eq_some_iff.mp timed
  have measured := congrArg IndexerProfile.qos same
  cases stored : lastQos (writtenBy crates passes) row.indexerAddress with
  | none =>
    rw [stored] at measured
    exact .inl measured.symm
  | some answer =>
    rw [stored] at measured
    obtain ⟨⟨time, statement⟩, kept, writing⟩ := List.mem_filterMap.mp (List.mem_of_getLast? stored)
    obtain ⟨listed, about⟩ := List.mem_filter.mp kept
    obtain ⟨pass, among, written⟩ := List.mem_flatMap.mp listed
    cases statement with
    | upsertRoster other entry => cases writing
    | updateQos other update =>
      obtain rfl : update = answer := Option.some.inj writing
      obtain rfl : other = row.indexerAddress := of_decide_eq_true about
      have planned := written_prefix.subset (List.mem_map_of_mem (f := Prod.snd) written)
      have asked : ProfileStatement.updateQos row.indexerAddress update ∈ pass.qosStatements crates :=
        (List.mem_append.mp planned).resolve_left (by simp [LodestarPass.rosterStatements])
      obtain ⟨request, aggregate, at_request, answered, rfl⟩ := mem_observed_of_updateQos asked
      unfold LodestarPass.answerAt at answered
      split at answered
      · cases answered
      · obtain ⟨points, served, rfl⟩ := Option.map_eq_some_iff.mp answered
        exact .inr ⟨pass, among, request, points, at_request, served, measured.symm⟩

/-- The readings of a day, each with the column of its mean. -/
def readings : List ((QosPoint → ℚ) × (QosColumns → Option ℚ)) :=
  [(QosPoint.successRate, QosColumns.successRate), (QosPoint.latencyMs, QosColumns.latencyMs),
    (QosPoint.blocksBehind, QosColumns.blocksBehind)]

private theorem column_between {reading : (QosPoint → ℚ) × (QosColumns → Option ℚ)}
    (member : reading ∈ readings)
    {low high : ℚ} {points : List QosPoint}
    (bounded : ∀ point ∈ points, low ≤ reading.1 point ∧ reading.1 point ≤ high) {mean : ℚ}
    (stored : reading.2 (aggregateQos points qosWindowDays).columns = some mean) :
    low ≤ mean ∧ mean ≤ high := by
  by_cases occupied : points.drop (points.length - qosWindowDays) = []
  · rw [aggregateQos, if_pos occupied] at stored
    simp only [readings, List.mem_cons, List.not_mem_nil, or_false] at member
    rcases member with rfl | rfl | rfl <;> cases stored
  · obtain ⟨value, held, bounds⟩ :=
      weightedMean_between (fun point there => bounded point (List.mem_of_mem_drop there)) occupied
    rw [aggregateQos, if_neg occupied] at stored
    simp only [readings, List.mem_cons, List.not_mem_nil, or_false] at member
    obtain rfl : value = mean := by
      rcases member with rfl | rfl | rfl <;> exact Option.some.inj (held.symm.trans stored)
    exact bounds

/-- What is known of `to_lowercase`: a text in lower case stays as it is. -/
def LowersOnce (crates : Crates) : Prop :=
  ∀ text, crates.lowercase (crates.lowercase text) = crates.lowercase text

/-- Every stored address is in lower case. -/
theorem address_of_mem_ingested {row : IndexerProfile} (member : row ∈ ingested crates passes) :
    ∃ text, crates.lowercase text = row.indexerAddress := by
  have found := Table.lookup_of_mem member
  rw [ingested_eq_runAll, lookup_runAll_anchored anchored_writtenBy] at found
  obtain ⟨columns, entered, -⟩ := Option.bind_eq_some_iff.mp found
  obtain ⟨⟨time, statement⟩, written, about, writing⟩ :=
    isSome_lastWritten_iff.mp (Option.isSome_iff_exists.mpr ⟨columns, entered⟩)
  obtain ⟨pass, -, among⟩ := List.mem_flatMap.mp written
  have planned := written_prefix.subset (List.mem_map_of_mem (f := Prod.snd) among)
  cases statement with
  | updateQos other update => cases writing
  | upsertRoster other entry =>
    have listed : ProfileStatement.upsertRoster other entry ∈ pass.rosterStatements crates :=
      (List.mem_append.mp planned).resolve_right (by simp [LodestarPass.qosStatements])
    obtain ⟨indexer, -, same⟩ := List.mem_map.mp listed
    cases same
    exact ⟨indexer.id, about⟩

/-- The scorer finds each profile under the address it was ingested for. -/
theorem lookup_loadProfiles (lowers : LowersOnce crates) (order : IterOrder ProfileRow) (now : Int)
    (db : Db) (address : String) :
    (loadProfiles crates order ⟨now, db, (ingested crates passes).scored⟩).lookup address =
      ((ingested crates passes).lookup address).map fun row => (address, row.scored.profile) := by
  have lowered : ∀ row ∈ (ingested crates passes).rows,
      crates.lowercase row.indexerAddress = row.indexerAddress := by
    intro row member
    obtain ⟨text, same⟩ := address_of_mem_ingested member
    rw [← same, lowers]
  have listed : ((ingested crates passes).scored.rows.map fun row : ProfileRow =>
      (crates.lowercase row.indexerAddress, row.profile)) =
      (ingested crates passes).rows.map fun row => (row.indexerAddress, row.scored.profile) := by
    refine List.map_map.trans (List.map_congr_left fun row member => ?_)
    exact Prod.ext (lowered row member) rfl
  have arranged := ((order.perm (ingested crates passes).scored.rows).map fun row : ProfileRow =>
    (crates.lowercase row.indexerAddress, row.profile)).trans (.of_eq listed)
  have distinct : (((ingested crates passes).rows.map fun row =>
      (row.indexerAddress, row.scored.profile)).map Prod.fst).Nodup := by
    rw [List.map_map]
    exact (ingested crates passes).unique
  apply Option.ext
  rintro ⟨about, profile⟩
  rw [Table.lookup_eq_some_iff, loadProfiles,
    mem_mapOfPairs ((arranged.map Prod.fst).nodup_iff.mpr distinct), arranged.mem_iff, List.mem_map,
    Option.map_eq_some_iff]
  constructor
  · rintro ⟨⟨row, member, same⟩, rfl⟩
    cases same
    exact ⟨row, Table.lookup_of_mem member, rfl⟩
  · rintro ⟨row, found, same⟩
    cases same
    obtain rfl := Table.key_of_lookup found
    exact ⟨⟨row, Table.mem_of_lookup found, rfl⟩, rfl⟩

/-- Whatever passes there were, and wherever each of them stopped, the scorer finds under an
address the roster entry written for it last and the measurement written for it last: an answer
to a request for it, whose exact means stay within the bounds of what is served. -/
theorem profiles_last_written (crates : Crates) (lowers : LowersOnce crates)
    (passes : List LodestarPass)
    (order : IterOrder ProfileRow) (now : Int) (db : Db) :
    (∀ address, (loadProfiles crates order ⟨now, db, (ingested crates passes).scored⟩).lookup address =
      (lastRoster (writtenBy crates passes) address).map fun columns =>
        (address, (IndexerProfile.scored ⟨address, columns,
          (lastQos (writtenBy crates passes) address).getD .unwritten, now⟩).profile)) ∧
    ∀ row ∈ ingested crates passes,
      (row.qos = .unwritten ∨ ∃ pass ∈ passes, ∃ request points,
        (pass.observed crates)[request]? = some row.indexerAddress ∧ pass.qos request = some points ∧
          row.qos = (aggregateQos points qosWindowDays).columns) ∧
      ∀ reading ∈ readings, ∀ low high, (∀ pass ∈ passes, ∀ request, ∀ points ∈ pass.qos request,
          ∀ point ∈ points, low ≤ reading.1 point ∧ reading.1 point ≤ high) →
        ∀ mean ∈ reading.2 row.qos, low ≤ mean ∧ mean ≤ high := by
  refine ⟨fun address => ?_, fun row member => ⟨qos_of_mem_ingested member, ?_⟩⟩
  · rw [lookup_loadProfiles lowers, ingested_eq_runAll, lookup_runAll_anchored anchored_writtenBy]
    cases listed : lastRoster (writtenBy crates passes) address with
    | none => rfl
    | some columns =>
      have anchored : Anchored ((writtenBy crates passes).map Prod.snd) := anchored_writtenBy
      obtain ⟨time, at_time⟩ := Option.isSome_iff_exists.mp
        ((lastWritten_of_anchored address anchored).2 (Option.isSome_iff_exists.mpr ⟨columns, listed⟩))
      rw [at_time]
      rfl
  · intro reading measured low high bounded mean stored
    rcases qos_of_mem_ingested member with unwritten | ⟨pass, among, request, points, -, served, answer⟩
    · rw [unwritten] at stored
      simp only [readings, List.mem_cons, List.not_mem_nil, or_false] at measured
      rcases measured with rfl | rfl | rfl <;> cases stored
    · rw [answer] at stored
      exact column_between measured (bounded pass among request points served) stored

/-- The sample crates lower case once and for all. -/
theorem lowersOnce_knowing (parses : List (String × Json)) (digests : List (String × String)) :
    LowersOnce (.knowing parses digests) := by
  intro text
  refine congrArg String.ofList ?_
  rw [Crates.knowing, String.toList_ofList, List.map_map]
  exact List.map_congr_left fun c _ => toLower_toLower c

/-- Two days of which the later saw nine times the queries. -/
def twoDays : List QosPoint := [⟨100, 50, 200, 10⟩, ⟨900, 100, 100, 0⟩]

/-- A pass that measures, and one that is killed after the second of its entries. -/
def twoPasses : List LodestarPass :=
  let entry (id : String) (stake : ℚ) : EnrichedIndexer :=
    ⟨id, none, none, none, some stake, none, some 4, none, none, none, none, none⟩
  let pass : LodestarPass :=
    { roster := some [entry "0xA" 1, entry "" 2, entry "0xb" 3]
      qos := fun request => if request = 0 then some twoDays else none
      refused := fun _ => false
      joined := fun _ => .reversed
      clock := fun n => n
      stop := none }
  [pass, { pass with roster := some [entry "0xC" 5, entry "0xa" 6, entry "0xb" 7], stop := some 2 }]

/-- The stake of the second pass beside the measurement of the first. -/
theorem twoPasses_read :
    (loadProfiles (.knowing [] []) .asInserted
        ⟨0, Db.empty, (ingested (.knowing [] []) twoPasses).scored⟩).lookup "0xa" =
      some ("0xa", ⟨none, some 6, some 4, some 95, some 1, some 1000, none⟩) :=
  ((profiles_last_written (.knowing [] []) (lowersOnce_knowing [] []) twoPasses .asInserted 0
    Db.empty).1 "0xa").trans (by decide +kernel)

end Passes

end Foghorn.Probe
