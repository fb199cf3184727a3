import Foghorn.Std.Rollup
import Foghorn.Probe.Locality

/-!
# One form for a deployment id

Migration 020 gives four deployments that were stored under a hex id the id they have as an IPFS
hash. Where a bucket was rolled up under both, it merges the two rows without looking at the
observations. `mergesHalves_iff` says for which observations the merged row is the one that a
rollup of all of them writes.
-/

namespace Foghorn.Probe

open Foghorn.Std Foghorn.Core

/-- A one-to-one renaming of ids none of which is a new name. -/
structure IdFix where
  entries : Table (String × String) String Prod.fst
  injective : (entries.rows.map Prod.snd).Nodup
  apart : ∀ hex ∈ entries.rows.map Prod.fst, hex ∉ entries.rows.map Prod.snd

/-- `deployment_id_fix`. -/
def deploymentIdFix : IdFix where
  entries :=
    { rows :=
        [("0x45c636b73728d75a77b84c782e2a44624a294c1414326e59f12d60e0a6e58f51",
            "QmT329Bej8AwSLahmgnmi6fdYkj3rorYAcCes45gDv9aJ4"),
          ("0xe7b79e8051d136a6ab0ffd6016c7b7fd96dc63e220fe4071021844f36796398b",
            "QmdwBHGxokamYsLfMVk6fXfry3Ss9emEiTy6wptd1ecysG"),
          ("0xce57e4bc7b885a6255edd3e9d1617bb8819559f3903b84c18bb5db31afe17d06",
            "QmcE8RpWtsiN5hkJKdfCXGfTDoTgPEjMbQwnjLPfThT7kZ"),
          ("0xde0a7b5368f846f7d863d9f64949b688ad9818243151d488b4c6b206145b9ea3",
            "QmdHQVHirs3yPygcgo3HNttXaFCS4pnoGiMx3aKXr192En")]
      unique := by decide }
  injective := by decide
  apart := by decide

namespace IdFix

variable (fix : IdFix)

/-- `f.ipfs .. WHERE f.hex = id`. -/
def ipfsOf (id : String) : Option String := (fix.entries.lookup id).map Prod.snd

def rename (id : String) : String := (fix.ipfsOf id).getD id

/-- The row under its new id. -/
def renamed (row : QosRow) : QosRow := { row with deploymentId := fix.rename row.deploymentId }

variable {fix} {hex ipfs id : String}

/-- The fix maps a hex id to the IPFS id of its entry. -/
theorem ipfsOf_eq_some_iff : fix.ipfsOf hex = some ipfs ↔ (hex, ipfs) ∈ fix.entries := by
  rw [ipfsOf, Option.map_eq_some_iff]
  constructor
  · rintro ⟨⟨_, _⟩, found, rfl⟩
    obtain ⟨listed, rfl⟩ := Table.lookup_eq_some_iff.mp found
    exact listed
  · intro listed
    exact ⟨_, Table.lookup_of_mem listed, rfl⟩

/-- No two hex ids are fixed to one IPFS id. -/
theorem ipfsOf_injective (first : fix.ipfsOf hex = some ipfs) (second : fix.ipfsOf id = some ipfs) :
    hex = id := by
  rw [ipfsOf_eq_some_iff] at first second
  exact congrArg Prod.fst (List.inj_on_of_nodup_map fix.injective first second rfl)

/-- No new name is renamed. -/
theorem ipfsOf_ipfs (fixed : fix.ipfsOf hex = some ipfs) : fix.ipfsOf ipfs = none := by
  by_contra renamed_
  obtain ⟨_, again⟩ := Option.ne_none_iff_exists'.mp renamed_
  rw [ipfsOf_eq_some_iff] at fixed again
  exact fix.apart ipfs (List.mem_map_of_mem again) (List.mem_map_of_mem fixed)

private theorem rename_of_fixed (fixed : fix.ipfsOf hex = some ipfs) : fix.rename hex = ipfs := by
  rw [rename, fixed]
  rfl

private theorem rename_of_free (free : fix.ipfsOf id = none) : fix.rename id = id := by
  rw [rename, free]
  rfl

/-- Nothing keeps an old name. -/
theorem ipfsOf_rename (id : String) : fix.ipfsOf (fix.rename id) = none := by
  cases fixed : fix.ipfsOf id with
  | none => rw [rename_of_free fixed, fixed]
  | some ipfs => rw [rename_of_fixed fixed, ipfsOf_ipfs fixed]

/-- Two ids get one name only if one of them is the new name of the other. -/
theorem eq_of_rename_eq (same : fix.rename hex = fix.rename id) :
    hex = id ∨ fix.ipfsOf hex = some id ∨ fix.ipfsOf id = some hex := by
  cases first : fix.ipfsOf hex with
  | none =>
    rw [rename_of_free first] at same
    cases second : fix.ipfsOf id with
    | none => exact .inl (same.trans (rename_of_free second))
    | some ipfs => exact .inr (.inr (by rw [same, rename_of_fixed second]))
  | some ipfs =>
    rw [rename_of_fixed first] at same
    cases second : fix.ipfsOf id with
    | none => exact .inr (.inl (by rw [same, rename_of_free second]))
    | some other =>
      rw [rename_of_fixed second] at same
      exact .inl (ipfsOf_injective first (same ▸ second))

/-- An id gets a new name when it is that name or the old one for it. -/
theorem rename_eq_iff (fixed : fix.ipfsOf hex = some ipfs) :
    fix.rename id = ipfs ↔ id = ipfs ∨ id = hex := by
  constructor
  · intro renamed_
    cases into : fix.ipfsOf id with
    | none => exact .inl ((rename_of_free into).symm.trans renamed_)
    | some other =>
      obtain rfl : other = ipfs := (rename_of_fixed into).symm.trans renamed_
      exact .inr (ipfsOf_injective into fixed)
  · rintro (rfl | rfl)
    · exact rename_of_free (ipfsOf_ipfs fixed)
    · exact rename_of_fixed fixed

end IdFix

/-- What `merged` holds for one group. -/
structure MergedHalf where
  queryCount : Nat
  ok : Nat
  comparableCount : Nat
  divergentCount : Nat
  avgLatency : Option ℚ
  maxLatency : Option ℚ
  avgBehind : Option ℚ
  maxBehind : Option ℚ

/-- `SUM(mean * weight) / NULLIF(SUM(weight), 0)`. -/
def meanBy (mean : QosMeasure → Option ℚ) (weight : QosMeasure → Nat) (rows : List QosRow) :
    Option ℚ :=
  ratio
    (total (rows.filterMap fun q => (mean q.measure).map fun mean => mean * (weight q.measure : ℚ)))
    (some (rows.map fun q => weight q.measure).sum)

def mergedHalf (rows : List QosRow) : MergedHalf where
  queryCount := (rows.map fun q => q.measure.queryCount).sum
  ok := (rows.map fun q => q.measure.numIndexer200Responses).sum
  comparableCount := (rows.map fun q => q.measure.comparableCount).sum
  divergentCount := (rows.map fun q => q.measure.divergentCount).sum
  avgLatency := meanBy QosMeasure.avgIndexerLatencyMs QosMeasure.numIndexer200Responses rows
  maxLatency := (rows.filterMap fun q => q.measure.maxIndexerLatencyMs).max?
  avgBehind := meanBy QosMeasure.avgIndexerBlocksBehind QosMeasure.queryCount rows
  maxBehind := (rows.filterMap fun q => q.measure.maxIndexerBlocksBehind).max?

/-- `GREATEST`, which leaves out nulls. -/
def greatest (left right : Option ℚ) : Option ℚ := (left.toList ++ right.toList).max?

/-- Two means by their weights, an absent one as zero. -/
def recombine (left : Option ℚ) (leftWeight : Nat) (right : Option ℚ) (rightWeight : Nat) :
    Option ℚ :=
  if 0 < leftWeight + rightWeight then
    some ((left.getD 0 * leftWeight + right.getD 0 * rightWeight) / (leftWeight + rightWeight))
  else none

/-- The columns that the merge sets. -/
def mergeMeasure (t : QosMeasure) (m : MergedHalf) : QosMeasure where
  queryCount := t.queryCount + m.queryCount
  numIndexer200Responses := t.numIndexer200Responses + m.ok
  proportionIndexer200Responses :=
    ((t.numIndexer200Responses + m.ok : Nat) : ℚ) / ((t.queryCount + m.queryCount : Nat) : ℚ)
  avgIndexerLatencyMs :=
    recombine t.avgIndexerLatencyMs t.numIndexer200Responses m.avgLatency m.ok
  maxIndexerLatencyMs := greatest t.maxIndexerLatencyMs m.maxLatency
  stdevIndexerLatencyMs := none
  latencyP50Ms := none
  latencyP95Ms := none
  latencyP99Ms := none
  avgIndexerBlocksBehind :=
    recombine t.avgIndexerBlocksBehind t.queryCount m.avgBehind m.queryCount
  maxIndexerBlocksBehind := greatest t.maxIndexerBlocksBehind m.maxBehind
  comparableCount := t.comparableCount + m.comparableCount
  divergentCount := t.divergentCount + m.divergentCount
  correctnessRate :=
    if 0 < t.comparableCount + m.comparableCount then
      some (1 - ((t.divergentCount + m.divergentCount : Nat) : ℚ) /
        ((t.comparableCount + m.comparableCount : Nat) : ℚ))
    else none

section Statements

variable (fix : IdFix)

/-- The first rename: a row whose new key is taken keeps its id, as one with no new id does. -/
def renameUnless (table : QosTable) (q : QosRow) : QosRow :=
  if table.holds (fix.renamed q).key then q else fix.renamed q

/-- Renaming the rows without a partner keeps their keys apart. -/
theorem apart_renameUnless {fix : IdFix} {table : QosTable} {first second : QosRow}
    (inFirst : first ∈ table) (inSecond : second ∈ table)
    (same : (renameUnless fix table first).key = (renameUnless fix table second).key) :
    first.key = second.key := by
  unfold renameUnless at same
  by_cases firstTaken : table.holds (fix.renamed first).key
  · rw [if_pos firstTaken] at same
    by_cases secondTaken : table.holds (fix.renamed second).key
    · rwa [if_pos secondTaken] at same
    · rw [if_neg secondTaken] at same
      exact absurd (same ▸ Table.holds_of_mem inFirst) secondTaken
  · rw [if_neg firstTaken] at same
    by_cases secondTaken : table.holds (fix.renamed second).key
    · rw [if_pos secondTaken] at same
      exact absurd (same ▸ Table.holds_of_mem inSecond) firstTaken
    · rw [if_neg secondTaken] at same
      simp only [QosRow.key, IdFix.renamed, Prod.mk.injEq] at same
      obtain ⟨indexer, names, bucket, secs⟩ := same
      rcases IdFix.eq_of_rename_eq names with deployment | intoSecond | intoFirst
      · simp only [QosRow.key, indexer, deployment, bucket, secs]
      · -- The second row would hold the new key of the first.
        refine absurd ?_ firstTaken
        have key : (fix.renamed first).key = second.key := by
          simp only [QosRow.key, IdFix.renamed, IdFix.rename_of_fixed intoSecond, indexer,
            bucket, secs]
        exact key ▸ Table.holds_of_mem inSecond
      · refine absurd ?_ secondTaken
        have key : (fix.renamed second).key = first.key := by
          simp only [QosRow.key, IdFix.renamed, IdFix.rename_of_fixed intoFirst, indexer,
            bucket, secs]
        exact key ▸ Table.holds_of_mem inFirst

/-- Rows whose new key is free are renamed. -/
def renameFree (table : QosTable) : QosTable :=
  table.updateKey (renameUnless fix table) fun _ inFirst _ inSecond same =>
    apart_renameUnless inFirst inSecond same

/-- The rows of `merged` for a row. -/
def halves (table : QosTable) (t : QosRow) : List QosRow :=
  table.rows.filter fun q => fix.ipfsOf q.deploymentId = some t.deploymentId &&
    q.indexerAddress = t.indexerAddress && q.bucketStart = t.bucketStart &&
    q.bucketSecs = t.bucketSecs

def mergeInto (now : Int) (table : QosTable) (t : QosRow) : QosRow :=
  { t with
    measure := mergeMeasure t.measure (mergedHalf (halves fix table t))
    computedAt := now }

/-- `none` is the error that a null proportion raises. -/
def mergeColliding (now : Int) (table : QosTable) : Option QosTable :=
  if table.rows.any fun t => !(halves fix table t).isEmpty &&
      (mergeInto fix now table t).measure.queryCount = 0 then none
  else some (table.updateWhere (fun t => !(halves fix table t).isEmpty) (mergeInto fix now table)
    fun _ => rfl)

def migrateProbes (db : Db) : Db :=
  { db with
    probe := db.probe.updateWhere (fun p => (fix.ipfsOf p.deploymentId).isSome)
      (fun p => { p with deploymentId := fix.rename p.deploymentId }) fun _ => rfl }

def migrateQos (now : Int) (db : Db) : Option Db :=
  (mergeColliding fix now (renameFree fix db.foghornQos)).map fun merged =>
    { db with
      foghornQos := merged.deleteWhere fun q => (fix.ipfsOf q.deploymentId).isSome }

/-- The flags whose new id is not flagged yet. -/
def keptFlags (db : Db) : Table NondeterministicRow String NondeterministicRow.deploymentId :=
  db.nondeterministic.deleteWhere fun n =>
    (fix.ipfsOf n.deploymentId).any fun ipfs => db.nondeterministic.holds ipfs

private theorem not_ipfsOf_keptFlags {fix : IdFix} {db : Db} {first second : NondeterministicRow}
    (inFirst : first ∈ keptFlags fix db) (inSecond : second ∈ keptFlags fix db) :
    fix.ipfsOf first.deploymentId ≠ some second.deploymentId := by
  intro into
  obtain ⟨-, kept⟩ := Table.mem_deleteWhere.mp inFirst
  rw [into, Option.any_some, decide_eq_false_iff_not] at kept
  exact kept (Table.holds_of_mem (Table.mem_deleteWhere.mp inSecond).1)

/-- Renaming the flags that are kept keeps their deployments apart. -/
theorem apart_keptFlags {fix : IdFix} {db : Db} : ∀ first ∈ keptFlags fix db,
    ∀ second ∈ keptFlags fix db, fix.rename first.deploymentId = fix.rename second.deploymentId →
      first.deploymentId = second.deploymentId := by
  intro first inFirst second inSecond same
  rcases IdFix.eq_of_rename_eq same with same | into | into
  · exact same
  · exact absurd into (not_ipfsOf_keptFlags inFirst inSecond)
  · exact absurd into (not_ipfsOf_keptFlags inSecond inFirst)

def migrateFlags (db : Db) : Db :=
  { db with
    nondeterministic := (keptFlags fix db).updateKey
      (fun n => { n with deploymentId := fix.rename n.deploymentId }) apart_keptFlags }

/-- The migration, in the tables that a rollup reads or writes. -/
def migrateIds (now : Int) (db : Db) : Option Db :=
  (migrateQos fix now (migrateProbes fix db)).map (migrateFlags fix)

end Statements

section Lookup

variable {fix : IdFix} {hex ipfs indexer : String} {bucket secs now : Int} {table : QosTable}
  {q t : QosRow}

private theorem key_renamed (fixed : fix.ipfsOf hex = some ipfs)
    (keyed : q.key = (indexer, hex, bucket, secs)) :
    (fix.renamed q).key = (indexer, ipfs, bucket, secs) := by
  simp only [QosRow.key, Prod.mk.injEq] at keyed ⊢
  obtain ⟨rfl, rfl, rfl, rfl⟩ := keyed
  exact ⟨rfl, IdFix.rename_of_fixed fixed, rfl, rfl⟩

private theorem renamed_of_ipfs (fixed : fix.ipfsOf hex = some ipfs)
    (keyed : t.key = (indexer, ipfs, bucket, secs)) : fix.renamed t = t := by
  simp only [QosRow.key, Prod.mk.injEq] at keyed
  rw [IdFix.renamed, IdFix.rename_of_free (by rw [keyed.2.1]; exact IdFix.ipfsOf_ipfs fixed)]

private theorem mem_renameFree {row : QosRow} :
    row ∈ renameFree fix table ↔ ∃ old ∈ table, renameUnless fix table old = row :=
  Table.mem_updateKey

/-- A row under the new name stays where it is. -/
theorem lookup_renameFree_ipfs (fixed : fix.ipfsOf hex = some ipfs)
    (stored : table.lookup (indexer, ipfs, bucket, secs) = some t) :
    (renameFree fix table).lookup (indexer, ipfs, bucket, secs) = some t := by
  obtain ⟨member, keyed⟩ := Table.lookup_eq_some_iff.mp stored
  refine Table.lookup_eq_some_iff.mpr ⟨mem_renameFree.mpr ⟨t, member, ?_⟩, keyed⟩
  rw [renameUnless, renamed_of_ipfs fixed keyed, ite_self]

/-- Beside it, a row under the old name waits for the merge. -/
theorem lookup_renameFree_taken (fixed : fix.ipfsOf hex = some ipfs)
    (stored : table.lookup (indexer, hex, bucket, secs) = some q)
    (taken : table.holds (indexer, ipfs, bucket, secs)) :
    (renameFree fix table).lookup (indexer, hex, bucket, secs) = some q := by
  obtain ⟨member, keyed⟩ := Table.lookup_eq_some_iff.mp stored
  refine Table.lookup_eq_some_iff.mpr ⟨mem_renameFree.mpr ⟨q, member, ?_⟩, keyed⟩
  rw [renameUnless, key_renamed fixed keyed, if_pos taken]

/-- Where the new name is free, the row takes it. -/
theorem lookup_renameFree_free (fixed : fix.ipfsOf hex = some ipfs)
    (stored : table.lookup (indexer, hex, bucket, secs) = some q)
    (free : ¬ table.holds (indexer, ipfs, bucket, secs)) :
    (renameFree fix table).lookup (indexer, ipfs, bucket, secs) = some (fix.renamed q) ∧
      (renameFree fix table).lookup (indexer, hex, bucket, secs) = none := by
  obtain ⟨member, keyed⟩ := Table.lookup_eq_some_iff.mp stored
  have moved : renameUnless fix table q = fix.renamed q := by
    rw [renameUnless, key_renamed fixed keyed, if_neg free]
  refine ⟨Table.lookup_eq_some_iff.mpr
    ⟨mem_renameFree.mpr ⟨q, member, moved⟩, key_renamed fixed keyed⟩, ?_⟩
  rw [Table.lookup_eq_none_iff]
  intro row listed same
  obtain ⟨old, oldMember, rfl⟩ := mem_renameFree.mp listed
  unfold renameUnless at same
  split at same
  · -- It stayed under the key of `q`, which moves.
    rename_i taken
    obtain rfl := Table.eq_of_key_eq oldMember member (same.trans keyed.symm)
    exact free (key_renamed fixed keyed ▸ taken)
  · have name := congrArg (fun key => key.2.1) same
    have gone := @IdFix.ipfsOf_rename fix old.deploymentId
    rw [show fix.rename old.deploymentId = hex from name, fixed] at gone
    cases gone

/-- The rows that are merged into a row are the one under its old name. -/
theorem halves_eq (fixed : fix.ipfsOf hex = some ipfs)
    (keyed : t.key = (indexer, ipfs, bucket, secs)) :
    halves fix table t = (table.lookup (indexer, hex, bucket, secs)).toList := by
  simp only [QosRow.key, Prod.mk.injEq] at keyed
  obtain ⟨rfl, rfl, rfl, rfl⟩ := keyed
  rw [← Table.filter_key, halves]
  apply List.filter_congr
  intro q _
  have name : fix.ipfsOf q.deploymentId = some t.deploymentId ↔ q.deploymentId = hex := by
    constructor
    · intro into
      exact IdFix.ipfsOf_injective into fixed
    · rintro rfl
      exact fixed
  rw [Bool.eq_iff_iff]
  simp only [Bool.and_eq_true, decide_eq_true_eq, name, QosRow.key, Prod.mk.injEq]
  tauto

/-- After the merge a row with halves is their combination, and any other is as it was. -/
theorem lookup_mergeColliding {merged : QosTable}
    (done : mergeColliding fix now table = some merged)
    (key : QosKey) : merged.lookup key = (table.lookup key).map fun t =>
      if !(halves fix table t).isEmpty then mergeInto fix now table t else t := by
  unfold mergeColliding at done
  split at done
  · cases done
  · obtain rfl := Option.some.inj done
    exact Table.lookup_updateWhere

/-- Every row ends under a new name. -/
theorem lookup_migrateQos {db after : Db} (done : migrateQos fix now db = some after) {id : String}
    (current : fix.ipfsOf id = none) :
    after.foghornQos.lookup (indexer, id, bucket, secs) =
      ((renameFree fix db.foghornQos).lookup (indexer, id, bucket, secs)).map fun t =>
        if !(halves fix (renameFree fix db.foghornQos) t).isEmpty then
          mergeInto fix now (renameFree fix db.foghornQos) t
        else t := by
  obtain ⟨merged, merges, rfl⟩ := Option.map_eq_some_iff.mp done
  rw [Table.lookup_deleteWhere, lookup_mergeColliding merges]
  cases found : (renameFree fix db.foghornQos).lookup (indexer, id, bucket, secs) with
  | none => rfl
  | some t =>
    have name : t.deploymentId = id := congrArg (fun key => key.2.1) (Table.key_of_lookup found)
    have kept : fix.ipfsOf (if !(halves fix (renameFree fix db.foghornQos) t).isEmpty then
        mergeInto fix now (renameFree fix db.foghornQos) t else t).deploymentId = none := by
      split
      · exact name ▸ current
      · exact name ▸ current
    rw [Option.map_some, Option.filter_some, kept, if_pos]
    rfl

private theorem lookup_migrateQos_old {db after : Db} (done : migrateQos fix now db = some after)
    (fixed : fix.ipfsOf hex = some ipfs) :
    after.foghornQos.lookup (indexer, hex, bucket, secs) = none := by
  obtain ⟨merged, merges, rfl⟩ := Option.map_eq_some_iff.mp done
  rw [Table.lookup_deleteWhere, Option.filter_eq_none_iff]
  intro row found
  have name := congrArg (fun key => key.2.1) (Table.key_of_lookup found)
  rw [show row.deploymentId = hex from name, fixed]
  exact Bool.false_ne_true

/-- A row alone is renamed and otherwise unchanged. -/
theorem lookup_migrateQos_free {db after : Db} (done : migrateQos fix now db = some after)
    (fixed : fix.ipfsOf hex = some ipfs)
    (stored : db.foghornQos.lookup (indexer, hex, bucket, secs) = some q)
    (free : db.foghornQos.lookup (indexer, ipfs, bucket, secs) = none) :
    after.foghornQos.lookup (indexer, ipfs, bucket, secs) =
      some { q with deploymentId := ipfs } := by
  obtain ⟨moved, gone⟩ := lookup_renameFree_free fixed stored (Table.not_holds_iff_lookup.mpr free)
  have keyed := Table.key_of_lookup moved
  rw [lookup_migrateQos done (IdFix.ipfsOf_ipfs fixed), moved, Option.map_some,
    halves_eq fixed keyed, gone]
  have old := congrArg (fun key => key.2.1) (Table.key_of_lookup stored)
  rw [if_neg (by decide), IdFix.renamed, show q.deploymentId = hex from old,
    IdFix.rename_of_fixed fixed]

/-- Of two rows the one under the new name takes in the other. -/
theorem lookup_migrateQos_both {db after : Db} (done : migrateQos fix now db = some after)
    (fixed : fix.ipfsOf hex = some ipfs)
    (stored : db.foghornQos.lookup (indexer, hex, bucket, secs) = some q)
    (beside : db.foghornQos.lookup (indexer, ipfs, bucket, secs) = some t) :
    after.foghornQos.lookup (indexer, ipfs, bucket, secs) =
      some { t with measure := mergeMeasure t.measure (mergedHalf [q]), computedAt := now } := by
  have keyed := Table.key_of_lookup beside
  have taken : db.foghornQos.holds (indexer, ipfs, bucket, secs) :=
    keyed ▸ Table.holds_of_mem (Table.mem_of_lookup beside)
  have halves : halves fix (renameFree fix db.foghornQos) t = [q] := by
    rw [halves_eq fixed keyed, lookup_renameFree_taken fixed stored taken]
    rfl
  rw [lookup_migrateQos done (IdFix.ipfsOf_ipfs fixed), lookup_renameFree_ipfs fixed beside,
    Option.map_some, halves, mergeInto, halves]
  rfl

end Lookup

section Columns

/-- The columns that the merge recombines agree. -/
structure SameColumns (left right : QosMeasure) : Prop where
  queryCount : left.queryCount = right.queryCount
  num200 : left.numIndexer200Responses = right.numIndexer200Responses
  proportion : left.proportionIndexer200Responses = right.proportionIndexer200Responses
  avgLatency : left.avgIndexerLatencyMs = right.avgIndexerLatencyMs
  maxLatency : left.maxIndexerLatencyMs = right.maxIndexerLatencyMs
  avgBehind : left.avgIndexerBlocksBehind = right.avgIndexerBlocksBehind
  maxBehind : left.maxIndexerBlocksBehind = right.maxIndexerBlocksBehind
  comparable : left.comparableCount = right.comparableCount
  divergent : left.divergentCount = right.divergentCount
  correctness : left.correctnessRate = right.correctnessRate

/-- Means of two lists that come out right under these weights: something was measured, and the
means are the same (zero for nothing measured) or each list is the same share of its weight. -/
def Balanced (left : List ℚ) (leftWeight : Nat) (right : List ℚ) (rightWeight : Nat) : Prop :=
  left ++ right ≠ [] ∧ ((average left).getD 0 = (average right).getD 0 ∨
    leftWeight * right.length = rightWeight * left.length)

/-- How far behind the answers that named a block were. -/
def blocksBehinds (rows : List ObsRow) : List ℚ := rows.filterMap ObsRow.blocksBehind

/-- The observations under two ids whose rows recombine. -/
structure Recombines (flagged : Bool) (old new : List ObsRow) : Prop where
  latency : new.countP ObsRow.ok + old.countP ObsRow.ok = 0 ∨
    Balanced (measureOf.latencies new) (new.countP ObsRow.ok) (measureOf.latencies old)
      (old.countP ObsRow.ok)
  behind : Balanced (blocksBehinds new) new.length (blocksBehinds old) old.length
  comparable : flagged → new.countP ObsRow.comparable + old.countP ObsRow.comparable = 0

/-- An observation as a rollup reads it under another id. -/
def ObsRow.relabel (id : String) (flagged : Bool) (row : ObsRow) : ObsRow :=
  { row with deploymentId := id, nondeterministic := flagged }

/-- Both sets of observations under one id. -/
def pooled (id : String) (flagged : Bool) (old new : List ObsRow) : List ObsRow :=
  new.map (ObsRow.relabel id flagged) ++ old.map (ObsRow.relabel id flagged)

variable {left right : List ℚ} {leftWeight rightWeight : Nat} {old new union : List ObsRow}
  {flagged oldFlag newFlag : Bool} {id : String} {q : QosRow}

/-- The recombined mean is the mean of both halves exactly when the weights are balanced. -/
theorem recombine_iff (weighed : 0 < leftWeight + rightWeight) :
    recombine (average left) leftWeight (average right) rightWeight = average (left ++ right) ↔
      Balanced left leftWeight right rightWeight := by
  have nonzero : (leftWeight : ℚ) + rightWeight ≠ 0 := by exact_mod_cast weighed.ne'
  rw [recombine, if_pos weighed, recombined_average_iff nonzero, Balanced]
  norm_cast

private theorem meanBy_singleton {mean : QosMeasure → Option ℚ} {weight : QosMeasure → Nat}
    (weighed : (mean q.measure).isSome → weight q.measure ≠ 0) :
    meanBy mean weight [q] = mean q.measure := by
  cases found : mean q.measure with
  | none => simp [meanBy, found, total, ratio]
  | some value =>
    have nonzero : (weight q.measure : ℚ) ≠ 0 := by
      exact_mod_cast weighed (by rw [found]; rfl)
    simp [meanBy, found, total, ratio, nonzero]

private theorem length_latencies_le (rows : List ObsRow) :
    (measureOf.latencies rows).length ≤ rows.countP ObsRow.ok := by
  rw [measureOf.latencies, List.countP_eq_length_filter]
  exact List.length_filterMap_le _ _

private theorem greatest_max? : greatest left.max? right.max? = (left ++ right).max? :=
    (max?_append _ _).symm

/-- Without successes there are no latencies. -/
theorem latencies_eq_nil (none_ : new.countP ObsRow.ok + old.countP ObsRow.ok = 0) :
    measureOf.latencies new ++ measureOf.latencies old = [] := by
  have newNone := length_latencies_le new
  have oldNone := length_latencies_le old
  rw [List.append_eq_nil_iff, ← List.length_eq_zero_iff, ← List.length_eq_zero_iff]
  omega

/-- Mean latencies recombine when there is none to recombine, or when they are balanced. -/
theorem recombine_latencies (recombines : new.countP ObsRow.ok + old.countP ObsRow.ok = 0 ∨
      Balanced (measureOf.latencies new) (new.countP ObsRow.ok) (measureOf.latencies old)
        (old.countP ObsRow.ok)) :
    recombine (average (measureOf.latencies new)) (new.countP ObsRow.ok)
        (average (measureOf.latencies old)) (old.countP ObsRow.ok) =
      average (measureOf.latencies new ++ measureOf.latencies old) := by
  by_cases none_ : new.countP ObsRow.ok + old.countP ObsRow.ok = 0
  · rw [latencies_eq_nil none_, recombine, none_, if_neg (Nat.lt_irrefl 0)]
    rfl
  · exact (recombine_iff (Nat.pos_of_ne_zero none_)).mpr (recombines.resolve_left none_)

private theorem countP_divergent_le (rows : List ObsRow) :
    rows.countP ObsRow.divergent ≤ rows.countP ObsRow.comparable := by
  apply List.countP_mono_left
  intro row _ divergent
  rw [ObsRow.divergent, Bool.and_eq_true] at divergent
  exact divergent.1

/-- A measurement does not depend on the order of its rows, up to the columns read. -/
theorem sameColumns_of_perm {rows others : List ObsRow} (perm : rows.Perm others) :
    SameColumns (measureOf rows) (measureOf others) where
  queryCount := perm.length_eq
  num200 := perm.countP_eq _
  proportion := by simp only [measureOf, perm.length_eq, perm.countP_eq]
  avgLatency := average_perm ((perm.filter _).filterMap _)
  maxLatency := max?_eq_of_perm ((perm.filter _).filterMap _)
  avgBehind := average_perm (perm.filterMap _)
  maxBehind := max?_eq_of_perm (perm.filterMap _)
  comparable := perm.countP_eq _
  divergent := perm.countP_eq _
  correctness := by simp only [measureOf, perm.countP_eq]

/-- Having the same columns is transitive. -/
theorem SameColumns.trans {first second third : QosMeasure} (left : SameColumns first second)
    (right : SameColumns second third) : SameColumns first third where
  queryCount := left.queryCount.trans right.queryCount
  num200 := left.num200.trans right.num200
  proportion := left.proportion.trans right.proportion
  avgLatency := left.avgLatency.trans right.avgLatency
  maxLatency := left.maxLatency.trans right.maxLatency
  avgBehind := left.avgBehind.trans right.avgBehind
  maxBehind := left.maxBehind.trans right.maxBehind
  comparable := left.comparable.trans right.comparable
  divergent := left.divergent.trans right.divergent
  correctness := left.correctness.trans right.correctness

/-- Having the same columns is symmetric. -/
theorem SameColumns.symm {first second : QosMeasure} (same : SameColumns first second) :
    SameColumns second first where
  queryCount := same.queryCount.symm
  num200 := same.num200.symm
  proportion := same.proportion.symm
  avgLatency := same.avgLatency.symm
  maxLatency := same.maxLatency.symm
  avgBehind := same.avgBehind.symm
  maxBehind := same.maxBehind.symm
  comparable := same.comparable.symm
  divergent := same.divergent.symm
  correctness := same.correctness.symm

section Pooled

private theorem length_pooled : (pooled id flagged old new).length = new.length + old.length := by
  rw [pooled, List.length_append, List.length_map, List.length_map]

/-- What does not read the id or the flag counts the same. -/
theorem countP_pooled (counted : ObsRow → Bool)
    (reads : ∀ row, counted (ObsRow.relabel id flagged row) = counted row) :
    (pooled id flagged old new).countP counted = new.countP counted + old.countP counted := by
  have blind : counted ∘ ObsRow.relabel id flagged = counted := funext reads
  rw [pooled, List.countP_append, List.countP_map, List.countP_map, blind]

private theorem latencies_pooled : measureOf.latencies (pooled id flagged old new) =
    measureOf.latencies new ++ measureOf.latencies old := by
  rw [measureOf.latencies, pooled, List.filter_append, List.filterMap_append, List.filter_map,
    List.filterMap_map, List.filter_map, List.filterMap_map]
  rfl

private theorem blocksBehinds_pooled :
    blocksBehinds (pooled id flagged old new) = blocksBehinds new ++ blocksBehinds old := by
  rw [blocksBehinds, pooled, List.filterMap_append, List.filterMap_map, List.filterMap_map]
  rfl

/-- On a flagged deployment nothing is comparable. -/
theorem countP_comparable_pooled_true : (pooled id true old new).countP ObsRow.comparable = 0 := by
  simp [pooled, ObsRow.comparable, ObsRow.relabel]

/-- A flag that stays as it was changes no observation. -/
theorem countP_pooled_same (oldUniform : ∀ row ∈ old, row.nondeterministic = flagged)
    (newUniform : ∀ row ∈ new, row.nondeterministic = flagged) (counted : ObsRow → Bool)
    (reads : ∀ row : ObsRow, counted (row.relabel id row.nondeterministic) = counted row) :
    (pooled id flagged old new).countP counted = new.countP counted + old.countP counted := by
  rw [pooled, List.countP_append, List.countP_map, List.countP_map]
  congr 1
  · apply List.countP_congr
    intro row member
    rw [Function.comp_apply, ← newUniform row member, reads]
  · apply List.countP_congr
    intro row member
    rw [Function.comp_apply, ← oldUniform row member, reads]

/-- The comparable and the divergent answers add up unless a flag takes them away. -/
theorem counts_pooled_iff (oldUniform : ∀ row ∈ old, row.nondeterministic = oldFlag)
    (newUniform : ∀ row ∈ new, row.nondeterministic = newFlag)
    (flags : flagged = (oldFlag || newFlag)) :
    (new.countP ObsRow.comparable + old.countP ObsRow.comparable =
          (pooled id flagged old new).countP ObsRow.comparable ∧
        new.countP ObsRow.divergent + old.countP ObsRow.divergent =
          (pooled id flagged old new).countP ObsRow.divergent) ↔
      (flagged → new.countP ObsRow.comparable + old.countP ObsRow.comparable = 0) := by
  cases flagged with
  | false =>
    obtain ⟨rfl, rfl⟩ := Bool.or_eq_false_iff.mp flags.symm
    refine iff_of_true ⟨?_, ?_⟩ fun taken => by cases taken
    · exact (countP_pooled_same oldUniform newUniform _ fun _ => rfl).symm
    · exact (countP_pooled_same oldUniform newUniform _ fun _ => rfl).symm
  | true =>
    have divergent := countP_divergent_le (pooled id true old new)
    have newBound := countP_divergent_le new
    have oldBound := countP_divergent_le old
    rw [countP_comparable_pooled_true] at divergent ⊢
    constructor
    · intro adds _
      exact adds.1
    · intro none_
      have zero := none_ rfl
      omega

end Pooled

private theorem max?_filterMap_singleton (column : QosRow → Option ℚ) :
    ([q].filterMap column).max? = column q := by
  cases found : column q with
  | none => simp [found]
  | some value => simp [found]

/-- A single half is merged as it is. -/
theorem mergedHalf_of_measure (half : q.measure = measureOf old) (someOld : old ≠ []) :
    mergedHalf [q] =
      { queryCount := old.length
        ok := old.countP ObsRow.ok
        comparableCount := old.countP ObsRow.comparable
        divergentCount := old.countP ObsRow.divergent
        avgLatency := average (measureOf.latencies old)
        maxLatency := (measureOf.latencies old).max?
        avgBehind := average (blocksBehinds old)
        maxBehind := (blocksBehinds old).max? } := by
  have latency : meanBy QosMeasure.avgIndexerLatencyMs QosMeasure.numIndexer200Responses [q] =
      average (measureOf.latencies old) := by
    rw [meanBy_singleton, half]
    · rfl
    · -- A mean latency is that of some success.
      rw [half]
      intro measured none_
      have bound := length_latencies_le old
      have noLatency : measureOf.latencies old = [] :=
        List.eq_nil_of_length_eq_zero (Nat.le_zero.mp (none_ ▸ bound))
      simp [measureOf, noLatency, average] at measured
  have behind : meanBy QosMeasure.avgIndexerBlocksBehind QosMeasure.queryCount [q] =
      average (blocksBehinds old) := by
    rw [meanBy_singleton, half]
    · rfl
    · rw [half]
      exact fun _ => (List.length_pos_of_ne_nil someOld).ne'
  rw [mergedHalf, latency, behind, max?_filterMap_singleton, max?_filterMap_singleton]
  simp [half, measureOf, blocksBehinds]

/-- The merged row has the columns of a rollup of both sets exactly when they recombine. -/
theorem sameColumns_merge_iff (someOld : old ≠ []) (someNew : new ≠ [])
    (half : q.measure = measureOf old) (oldUniform : ∀ row ∈ old, row.nondeterministic = oldFlag)
    (newUniform : ∀ row ∈ new, row.nondeterministic = newFlag)
    (flags : flagged = (oldFlag || newFlag)) (both : union.Perm (pooled id flagged old new)) :
    SameColumns (mergeMeasure (measureOf new) (mergedHalf [q])) (measureOf union) ↔
      Recombines flagged old new := by
  have counts := @counts_pooled_iff old new flagged oldFlag newFlag id oldUniform newUniform flags
  have answered : 0 < new.length + old.length := by
    have := List.length_pos_of_ne_nil someNew
    omega
  have together := sameColumns_of_perm both
  have ok : (pooled id flagged old new).countP ObsRow.ok = _ := countP_pooled ObsRow.ok fun _ => rfl
  rw [mergedHalf_of_measure half someOld]
  constructor
  · intro same
    have columns := same.trans together
    refine ⟨?_, ?_, ?_⟩
    · by_cases none_ : new.countP ObsRow.ok + old.countP ObsRow.ok = 0
      · exact .inl none_
      · refine .inr ((recombine_iff (Nat.pos_of_ne_zero none_)).mp ?_)
        rw [← @latencies_pooled old new flagged id]
        exact columns.avgLatency
    · refine (recombine_iff answered).mp ?_
      rw [← @blocksBehinds_pooled old new flagged id]
      exact columns.avgBehind
    · exact counts.mp ⟨columns.comparable, columns.divergent⟩
  · intro recombines
    obtain ⟨comparable, divergent⟩ := counts.mpr recombines.comparable
    refine SameColumns.trans ?_ together.symm
    constructor
    · exact length_pooled.symm
    · exact ok.symm
    · simp only [mergeMeasure, measureOf, length_pooled, ok]
    · change recombine _ _ _ _ = average (measureOf.latencies _)
      rw [latencies_pooled]
      exact recombine_latencies recombines.latency
    · change greatest _ _ = (measureOf.latencies _).max?
      rw [latencies_pooled]
      exact greatest_max?
    · change recombine _ _ _ _ = average (blocksBehinds _)
      rw [blocksBehinds_pooled]
      exact (recombine_iff answered).mpr recombines.behind
    · change greatest _ _ = (blocksBehinds _).max?
      rw [blocksBehinds_pooled]
      exact greatest_max?
    · exact comparable
    · exact divergent
    · simp only [mergeMeasure, measureOf, comparable, divergent]

end Columns

section Union

variable {fix : IdFix} {cfg : QosRollupConfig} {db after : Db} {hex ipfs indexer : String}
  {bucket now : Int}

/-- What the migration leaves of the tables that a rollup reads. -/
theorem migrateIds_eq (done : migrateIds fix now db = some after) :
    ∃ table, migrateQos fix now (migrateProbes fix db) =
        some { migrateProbes fix db with foghornQos := table } ∧
      after = migrateFlags fix { migrateProbes fix db with foghornQos := table } := by
  obtain ⟨middle, qos, rfl⟩ := Option.map_eq_some_iff.mp done
  obtain ⟨table, merged, rfl⟩ := Option.map_eq_some_iff.mp qos
  exact ⟨_, qos, rfl⟩

private theorem mem_migrateFlags {row : NondeterministicRow} :
    row ∈ (migrateFlags fix db).nondeterministic ↔
      ∃ n ∈ keptFlags fix db, { n with deploymentId := fix.rename n.deploymentId } = row :=
  @Table.mem_updateKey _ _ _ _ _ apart_keptFlags row

/-- A deployment is flagged if it was under one of its names. -/
theorem flagged_migrateFlags (fixed : fix.ipfsOf hex = some ipfs) :
    (migrateFlags fix db).flagged ipfs = (db.flagged hex || db.flagged ipfs) := by
  rw [Bool.eq_iff_iff, Bool.or_eq_true]
  simp only [Db.flagged, decide_eq_true_eq, Table.holds_iff]
  constructor
  · rintro ⟨_, listed, name⟩
    obtain ⟨n, kept, rfl⟩ := mem_migrateFlags.mp listed
    have stored := (Table.mem_deleteWhere.mp kept).1
    rcases (IdFix.rename_eq_iff fixed).mp name with new | old
    · exact .inr ⟨n, stored, new⟩
    · exact .inl ⟨n, stored, old⟩
  · intro flagged
    by_cases current : db.nondeterministic.holds ipfs
    · obtain ⟨n, stored, rfl⟩ := Table.holds_iff.mp current
      have free := IdFix.ipfsOf_ipfs fixed
      refine ⟨_, mem_migrateFlags.mpr ⟨n, Table.mem_deleteWhere.mpr ⟨stored, ?_⟩, rfl⟩,
        IdFix.rename_of_free free⟩
      rw [free]
      rfl
    · obtain ⟨n, stored, rfl⟩ := flagged.resolve_right fun held =>
      current (Table.holds_iff.mpr held)
      refine ⟨_, mem_migrateFlags.mpr ⟨n, Table.mem_deleteWhere.mpr ⟨stored, ?_⟩, rfl⟩,
        IdFix.rename_of_fixed fixed⟩
      rw [fixed]
      exact decide_eq_false current

/-- After the migration every probe has its deployment renamed. -/
theorem lookup_probe_migrateIds (done : migrateIds fix now db = some after) (id : Uuid) :
    after.probe.lookup id =
      (db.probe.lookup id).map fun p => { p with deploymentId := fix.rename p.deploymentId } := by
  obtain ⟨table, -, rfl⟩ := migrateIds_eq done
  change (migrateProbes fix db).probe.lookup id = _
  rw [migrateProbes, Table.lookup_updateWhere]
  refine congrArg (Option.map · _) (funext fun p => ?_)
  split
  · rfl
  · rename_i current
    rw [IdFix.rename_of_free (by simpa using current)]

/-- Of an observation the migration changes what it says of the deployment. -/
theorem obsRow_migrateIds (done : migrateIds fix now db = some after) (p : ProbeRow)
    (o : ObservationRow) :
    after.isEvidence o = db.isEvidence o ∧
      obsRow cfg after { p with deploymentId := fix.rename p.deploymentId } o =
        (obsRow cfg db p o).relabel (fix.rename p.deploymentId)
          (after.flagged (fix.rename p.deploymentId)) := by
  obtain ⟨table, -, rfl⟩ := migrateIds_eq done
  exact ⟨rfl, rfl⟩

/-- Every observation is read under the new name of its deployment. -/
theorem allObsRows_migrateIds (done : migrateIds fix now db = some after) :
    allObsRows cfg after = (allObsRows cfg db).map fun row =>
      row.relabel (fix.rename row.deploymentId) (after.flagged (fix.rename row.deploymentId)) := by
  have observations : after.observation = db.observation := by
    obtain ⟨table, -, rfl⟩ := migrateIds_eq done
    rfl
  rw [allObsRows, allObsRows, List.map_filterMap, observations]
  apply List.filterMap_congr
  intro o _
  rw [lookup_probe_migrateIds done]
  cases db.probe.lookup o.probeId with
  | none => rfl
  | some p =>
    obtain ⟨evidence, row⟩ := @obsRow_migrateIds _ cfg _ _ _ done p o
    rw [Option.map_some, Option.bind_some, Option.bind_some, evidence, row]
    split
    · rfl
    · rfl

/-- The observations under the new name are those under both. -/
theorem groupRows_migrateIds (done : migrateIds fix now db = some after)
    (fixed : fix.ipfsOf hex = some ipfs) :
    (groupRows cfg after (indexer, ipfs, bucket)).Perm
      (pooled ipfs (db.flagged hex || db.flagged ipfs) (groupRows cfg db (indexer, hex, bucket))
        (groupRows cfg db (indexer, ipfs, bucket))) := by
  have flag : after.flagged ipfs = (db.flagged hex || db.flagged ipfs) := by
    obtain ⟨table, -, rfl⟩ := migrateIds_eq done
    exact flagged_migrateFlags fixed
  -- A row is in the new group when it was in one of the two.
  have chosen (row : ObsRow) : (row.relabel (fix.rename row.deploymentId)
        (after.flagged (fix.rename row.deploymentId))).group = (indexer, ipfs, bucket) ↔
      row.group = (indexer, ipfs, bucket) ∨ row.group = (indexer, hex, bucket) := by
    simp only [ObsRow.group, ObsRow.relabel, Prod.mk.injEq, IdFix.rename_eq_iff fixed]
    tauto
  have rows : groupRows cfg after (indexer, ipfs, bucket) =
      ((allObsRows cfg db).filter fun row => decide (row.group = (indexer, ipfs, bucket)) ||
        decide (row.group = (indexer, hex, bucket))).map
          (ObsRow.relabel ipfs (db.flagged hex || db.flagged ipfs)) := by
    rw [groupRows, allObsRows_migrateIds done, List.filter_map]
    simp only [Function.comp_def, chosen, Bool.decide_or]
    apply List.map_congr_left
    intro row member
    have renamed := (chosen row).mpr (by simpa using (List.mem_filter.mp member).2)
    have name : fix.rename row.deploymentId = ipfs := congrArg (fun group => group.2.1) renamed
    rw [name, flag]
  rw [rows, pooled, ← List.map_append]
  refine List.Perm.map _ (filter_or_perm ?_ _)
  intro row ofNew
  rw [of_decide_eq_true ofNew, decide_eq_false_iff_not]
  intro same
  have old : ipfs = hex := congrArg (fun group => group.2.1) same
  rw [← old, IdFix.ipfsOf_ipfs fixed] at fixed
  cases fixed

/-- After the migration no row is left under a hex id. -/
theorem lookup_migrateIds_old (done : migrateIds fix now db = some after)
    (fixed : fix.ipfsOf hex = some ipfs) {secs : Int} :
    after.foghornQos.lookup (indexer, hex, bucket, secs) = none := by
  obtain ⟨table, qos, rfl⟩ := migrateIds_eq done
  have gone := @lookup_migrateQos_old _ _ _ indexer bucket secs _ _ _ qos fixed
  exact gone

/-- After the migration the row of an IPFS id is merged with that of its hex id. -/
theorem lookup_migrateIds_both (done : migrateIds fix now db = some after)
    (fixed : fix.ipfsOf hex = some ipfs) {secs : Int} {q t : QosRow}
    (stored : db.foghornQos.lookup (indexer, hex, bucket, secs) = some q)
    (beside : db.foghornQos.lookup (indexer, ipfs, bucket, secs) = some t) :
    after.foghornQos.lookup (indexer, ipfs, bucket, secs) =
      some { t with measure := mergeMeasure t.measure (mergedHalf [q]), computedAt := now } := by
  obtain ⟨table, qos, rfl⟩ := migrateIds_eq done
  have merged := lookup_migrateQos_both qos fixed stored beside
  exact merged

/-- After the migration a row of a hex id alone is found under the IPFS id. -/
theorem lookup_migrateIds_free (done : migrateIds fix now db = some after)
    (fixed : fix.ipfsOf hex = some ipfs) {secs : Int} {q : QosRow}
    (stored : db.foghornQos.lookup (indexer, hex, bucket, secs) = some q)
    (free : db.foghornQos.lookup (indexer, ipfs, bucket, secs) = none) :
    after.foghornQos.lookup (indexer, ipfs, bucket, secs) =
      some { q with deploymentId := ipfs } := by
  obtain ⟨table, qos, rfl⟩ := migrateIds_eq done
  have moved := lookup_migrateQos_free qos fixed stored free
  exact moved

/-- The migration succeeds on rows that count something. -/
theorem exists_migrateIds (counted : ∀ row ∈ db.foghornQos, 0 < row.measure.queryCount) :
    ∃ after, migrateIds fix now db = some after := by
  have kept : ∀ t ∈ (renameFree fix db.foghornQos).rows, 0 < t.measure.queryCount := by
    intro t listed
    obtain ⟨old, stored, rfl⟩ := mem_renameFree.mp listed
    rw [renameUnless]
    split
    · exact counted old stored
    · exact counted old stored
  obtain ⟨merged, merges⟩ : ∃ merged,
      mergeColliding fix now (renameFree fix db.foghornQos) = some merged := by
    refine ⟨_, if_neg ?_⟩
    rw [List.any_eq_true]
    rintro ⟨t, listed, fails⟩
    rw [Bool.and_eq_true, decide_eq_true_eq] at fails
    have sum : t.measure.queryCount + _ = 0 := fails.2
    have positive := kept t listed
    omega
  rw [migrateIds, migrateQos, show (migrateProbes fix db).foghornQos = db.foghornQos from rfl,
    merges]
  exact ⟨_, rfl⟩

end Union

section Merges

variable {fix : IdFix} {cfg : QosRollupConfig} {db after : Db} {hex ipfs indexer : String}
  {bucket now : Int}

/-- What the migration leaves of one indexer, deployment and bucket: a row that was alone under its
new id, and of two rows one, with the columns that any later roll of the bucket computes from the
observations of both. -/
structure MergesHalves (cfg : QosRollupConfig) (db after : Db) (hex ipfs indexer : String)
    (bucket : Int) : Prop where
  single : after.foghornQos.lookup (indexer, hex, bucket, cfg.width) = none
  renamed : ∀ q, db.foghornQos.lookup (indexer, hex, bucket, cfg.width) = some q →
    db.foghornQos.lookup (indexer, ipfs, bucket, cfg.width) = none →
      after.foghornQos.lookup (indexer, ipfs, bucket, cfg.width) =
        some { q with deploymentId := ipfs }
  merged : (db.foghornQos.lookup (indexer, hex, bucket, cfg.width)).isSome →
    (db.foghornQos.lookup (indexer, ipfs, bucket, cfg.width)).isSome →
      ∀ later lower upper deployment,
        (windowRange cfg lower upper).Holds bucket → forDeployment deployment ipfs →
        ∃ left rolled, storedMeasure cfg after (indexer, ipfs, bucket) = some left ∧
          storedMeasure cfg (rollRange cfg later lower upper deployment after).1
            (indexer, ipfs, bucket) = some rolled ∧ SameColumns left rolled

private theorem groupRows_ne_nil_iff {group : QosGroup}
    (rolled : storedMeasure cfg db group = wantedMeasure cfg db group) :
    groupRows cfg db group ≠ [] ↔
      (db.foghornQos.lookup (group.1, group.2.1, group.2.2, cfg.width)).isSome := by
  rw [← Option.isSome_map,
    show (db.foghornQos.lookup (group.1, group.2.1, group.2.2, cfg.width)).map
    QosRow.measure = storedMeasure cfg db group from rfl, rolled, wantedMeasure]
  cases groupRows cfg db group <;> simp

private theorem wantedMeasure_of_ne {group : QosGroup} (some_ : groupRows cfg db group ≠ []) :
    wantedMeasure cfg db group = some (measureOf (groupRows cfg db group)) := by
  unfold wantedMeasure
  cases found : groupRows cfg db group with
  | nil => exact absurd found some_
  | cons head tail => rfl

/-- All observations of a group are under its deployment's flag. -/
theorem nondeterministic_groupRows {group : QosGroup} :
    ∀ row ∈ groupRows cfg db group, row.nondeterministic = db.flagged group.2.1 := by
  intro row member
  obtain ⟨listed, grouped⟩ := List.mem_filter.mp member
  obtain ⟨o, _, p, _, _, _, rfl⟩ := mem_allObsRows.mp listed
  exact congrArg (fun g => db.flagged g.2.1) (of_decide_eq_true grouped)

private theorem windowRange_holds (positive : 0 < cfg.bucketSecs) (time : Int) :
    (windowRange cfg time (some time)).Holds time := by
  have width : 0 < cfg.bucketMicros := by
    unfold QosRollupConfig.bucketMicros microsPerSecond
    omega
  refine ⟨floorTo_le width time, ?_⟩
  intro upper isUpper
  obtain rfl := Option.some.inj isUpper
  exact lt_floorTo_add width time

/-- The merged row of two, and when it has the columns of the observations under the new id. -/
theorem columns_migrateIds (done : migrateIds fix now db = some after)
    (fixed : fix.ipfsOf hex = some ipfs)
    (oldRolled : storedMeasure cfg db (indexer, hex, bucket) =
      wantedMeasure cfg db (indexer, hex, bucket))
    (newRolled : storedMeasure cfg db (indexer, ipfs, bucket) =
      wantedMeasure cfg db (indexer, ipfs, bucket))
    (someOld : groupRows cfg db (indexer, hex, bucket) ≠ [])
    (someNew : groupRows cfg db (indexer, ipfs, bucket) ≠ []) :
    ∃ left, storedMeasure cfg after (indexer, ipfs, bucket) = some left ∧
      (SameColumns left (measureOf (groupRows cfg after (indexer, ipfs, bucket))) ↔
        Recombines (db.flagged hex || db.flagged ipfs) (groupRows cfg db (indexer, hex, bucket))
          (groupRows cfg db (indexer, ipfs, bucket))) := by
  rw [wantedMeasure_of_ne someOld] at oldRolled
  rw [wantedMeasure_of_ne someNew] at newRolled
  obtain ⟨q, stored, half⟩ := Option.map_eq_some_iff.mp oldRolled
  obtain ⟨t, beside, whole⟩ := Option.map_eq_some_iff.mp newRolled
  refine ⟨mergeMeasure t.measure (mergedHalf [q]), ?_, ?_⟩
  · rw [storedMeasure, lookup_migrateIds_both done fixed stored beside]
    rfl
  · rw [whole]
    exact sameColumns_merge_iff someOld someNew half nondeterministic_groupRows
      nondeterministic_groupRows rfl (groupRows_migrateIds done fixed)

/-- A later roll of the bucket measures the observations under the new id. -/
theorem storedMeasure_roll_migrateIds (positive : 0 < cfg.bucketSecs)
    (done : migrateIds fix now db = some after) (fixed : fix.ipfsOf hex = some ipfs)
    (someNew : groupRows cfg db (indexer, ipfs, bucket) ≠ []) {later lower : Int}
    {upper : Option Int} {deployment : Option String}
    (inside : (windowRange cfg lower upper).Holds bucket) (chosen : forDeployment deployment ipfs) :
    storedMeasure cfg (rollRange cfg later lower upper deployment after).1 (indexer, ipfs, bucket) =
      some (measureOf (groupRows cfg after (indexer, ipfs, bucket))) := by
  have union_ := @groupRows_migrateIds _ cfg _ _ _ _ indexer bucket _ done fixed
  have some_ : groupRows cfg after (indexer, ipfs, bucket) ≠ [] := by
    intro none_
    rw [none_] at union_
    have empty := List.append_eq_nil_iff.mp union_.nil_eq.symm
    exact someNew (List.map_eq_nil_iff.mp empty.1)
  rw [storedMeasure_rollRange positive, if_pos ⟨inside, chosen⟩, wantedMeasure_of_ne some_]

/-- The migration merges two half-measurements into what one rollup measures exactly when the
observations recombine. -/
theorem mergesHalves_of_fixed_iff (positive : 0 < cfg.bucketSecs)
    (done : migrateIds fix now db = some after) (fixed : fix.ipfsOf hex = some ipfs)
    (oldRolled : storedMeasure cfg db (indexer, hex, bucket) =
      wantedMeasure cfg db (indexer, hex, bucket))
    (newRolled : storedMeasure cfg db (indexer, ipfs, bucket) =
      wantedMeasure cfg db (indexer, ipfs, bucket)) :
    MergesHalves cfg db after hex ipfs indexer bucket ↔
      (groupRows cfg db (indexer, hex, bucket) ≠ [] →
        groupRows cfg db (indexer, ipfs, bucket) ≠ [] →
        Recombines (db.flagged hex || db.flagged ipfs) (groupRows cfg db (indexer, hex, bucket))
          (groupRows cfg db (indexer, ipfs, bucket))) := by
  have oldStored := groupRows_ne_nil_iff oldRolled
  have newStored := groupRows_ne_nil_iff newRolled
  constructor
  · intro merges someOld someNew
    obtain ⟨left, kept, same⟩ := columns_migrateIds done fixed oldRolled newRolled someOld someNew
    have everywhere : forDeployment none ipfs := fun wanted none_ =>
      absurd none_ (Option.not_mem_none wanted)
    obtain ⟨left', rolled, kept', written, agree⟩ := merges.merged (oldStored.mp someOld)
      (newStored.mp someNew) 0 bucket (some bucket) none (windowRange_holds positive bucket)
        everywhere
    rw [storedMeasure_roll_migrateIds positive done fixed someNew
      (windowRange_holds positive bucket)
      everywhere] at written
    obtain rfl := Option.some.inj (kept.symm.trans kept')
    obtain rfl := Option.some.inj written
    exact same.mp agree
  · intro recombines
    refine ⟨lookup_migrateIds_old done fixed, fun q stored free =>
      lookup_migrateIds_free done fixed stored free, ?_⟩
    intro old new later lower upper deployment inside chosen
    have someOld := oldStored.mpr old
    have someNew := newStored.mpr new
    obtain ⟨left, kept, same⟩ := columns_migrateIds done fixed oldRolled newRolled someOld someNew
    exact ⟨left, _, kept, storedMeasure_roll_migrateIds positive done fixed someNew inside chosen,
      same.mpr (recombines someOld someNew)⟩

/-- Over the four deployments, the migration merges two half-measurements into what one rollup
measures exactly when the observations recombine. -/
theorem mergesHalves_iff (positive : 0 < cfg.bucketSecs)
    (done : migrateIds deploymentIdFix now db = some after)
    (fixed : (hex, ipfs) ∈ deploymentIdFix.entries)
    (oldRolled : storedMeasure cfg db (indexer, hex, bucket) =
      wantedMeasure cfg db (indexer, hex, bucket))
    (newRolled : storedMeasure cfg db (indexer, ipfs, bucket) =
      wantedMeasure cfg db (indexer, ipfs, bucket)) :
    MergesHalves cfg db after hex ipfs indexer bucket ↔
      (groupRows cfg db (indexer, hex, bucket) ≠ [] →
        groupRows cfg db (indexer, ipfs, bucket) ≠ [] →
        Recombines (db.flagged hex || db.flagged ipfs) (groupRows cfg db (indexer, hex, bucket))
          (groupRows cfg db (indexer, ipfs, bucket))) :=
  mergesHalves_of_fixed_iff positive done (IdFix.ipfsOf_eq_some_iff.mpr fixed) oldRolled newRolled

end Merges

section Split

def hexId : String := "0xce57e4bc7b885a6255edd3e9d1617bb8819559f3903b84c18bb5db31afe17d06"

def ipfsId : String := "QmcE8RpWtsiN5hkJKdfCXGfTDoTgPEjMbQwnjLPfThT7kZ"

def splitConfig : QosRollupConfig := ⟨300, 0, "lodestar", "eip155:42161", 50⟩

def splitProbe (id : Uuid) (deploymentId : String) : ProbeRow :=
  ⟨id, deploymentId, "0xb", 100, "hash", "Q_entity", "query", 0⟩

/-- A paid answer, with the head it named. -/
def splitAnswer (probeId : Uuid) (head : Option Int) : ObservationRow :=
  ⟨probeId, "0xa", none, some 10, head, none, some 200, none, .exact 1, .paid, none, none, none⟩

/-- One indexer answered one probe under each id, and the rollup measured both. -/
def splitDb (oldHead newHead : Option Int) : Db :=
  (rollRange splitConfig 0 0 none none
    { Db.empty with
      probe := (Table.empty.insertNew (splitProbe 1 hexId)).insertNew (splitProbe 2 ipfsId)
      observation :=
        (Table.empty.insertNew (splitAnswer 1 oldHead)).insertNew (splitAnswer 2 newHead) }).1

variable {oldHead newHead : Option Int}

private theorem splitDb_rolled (deployment : String) :
    storedMeasure splitConfig (splitDb oldHead newHead) ("0xa", deployment, 0) =
      wantedMeasure splitConfig (splitDb oldHead newHead) ("0xa", deployment, 0) := by
  have inside : (windowRange splitConfig 0 none).Holds 0 := by decide
  rw [splitDb, storedMeasure_rollRange (by decide),
    if_pos ⟨inside, fun wanted none_ => absurd none_ (Option.not_mem_none wanted)⟩]
  rfl

private theorem groupRows_splitDb_old :
    groupRows splitConfig (splitDb oldHead newHead) ("0xa", hexId, 0) =
    [obsRow splitConfig (splitDb oldHead newHead) (splitProbe 1 hexId) (splitAnswer 1 oldHead)] :=
      rfl

private theorem groupRows_splitDb_new :
    groupRows splitConfig (splitDb oldHead newHead) ("0xa", ipfsId, 0) =
    [obsRow splitConfig (splitDb oldHead newHead) (splitProbe 2 ipfsId) (splitAnswer 2 newHead)] :=
      rfl

private theorem split_fixed :
    (hexId, ipfsId) ∈ deploymentIdFix.entries := Table.mem_rows.mp (by decide)

/-- Both rows count a probe. -/
theorem splitDb_counted :
    ∀ row ∈ (splitDb oldHead newHead).foghornQos, 0 < row.measure.queryCount := by
  intro row stored
  rw [Table.mem_iff_lookup, splitDb, lookup_rollRange (by decide)] at stored
  split at stored
  · obtain ⟨wanted, found, same⟩ := Option.map_eq_some_iff.mp stored
    have bare : wanted = row := same
    obtain ⟨some_, counts⟩ := wantedRow_eq_some_iff.mp found
    rw [← bare, counts]
    exact List.length_pos_of_ne_nil some_
  · cases stored

/-- Where both answers named the same head, the halves merge. -/
theorem equal_heads_merge : ∃ after,
    migrateIds deploymentIdFix 0 (splitDb (some 140) (some 140)) = some after ∧
      MergesHalves splitConfig (splitDb (some 140) (some 140)) after hexId ipfsId "0xa" 0 := by
  obtain ⟨after, done⟩ :=
    @exists_migrateIds deploymentIdFix _ 0 (@splitDb_counted (some 140) (some 140))
  refine ⟨after, done, (mergesHalves_iff (by decide) done split_fixed (splitDb_rolled _)
    (splitDb_rolled _)).mpr fun _ _ => ?_⟩
  rw [groupRows_splitDb_old, groupRows_splitDb_new]
  refine ⟨.inr ⟨List.cons_ne_nil _ _, .inl rfl⟩, ⟨List.cons_ne_nil _ _, .inl rfl⟩, ?_⟩
  intro flagged
  cases flagged

/-- An answer without a head halves how far behind the other one was. -/
theorem missing_head_dilutes : ∃ after,
    migrateIds deploymentIdFix 0 (splitDb none (some 140)) = some after ∧
      ¬ MergesHalves splitConfig (splitDb none (some 140)) after hexId ipfsId "0xa" 0 := by
  obtain ⟨after, done⟩ := @exists_migrateIds deploymentIdFix _ 0 (@splitDb_counted none (some 140))
  have fixed := IdFix.ipfsOf_eq_some_iff.mpr split_fixed
  refine ⟨after, done, fun merges => ?_⟩
  have recombines := (mergesHalves_of_fixed_iff (by decide) done fixed (splitDb_rolled _)
    (splitDb_rolled _)).mp merges (List.cons_ne_nil _ _) (List.cons_ne_nil _ _)
  rw [groupRows_splitDb_old, groupRows_splitDb_new] at recombines
  have oldBehind : blocksBehinds [obsRow splitConfig (splitDb none (some 140)) (splitProbe 1 hexId)
      (splitAnswer 1 none)] = [] := rfl
  have newBehind : blocksBehinds [obsRow splitConfig (splitDb none (some 140)) (splitProbe 2 ipfsId)
      (splitAnswer 2 (some 140))] = [10] := by
    norm_num [blocksBehinds, List.filterMap_cons, obsRow, splitAnswer, splitProbe, splitConfig,
      Int.bmod]
  have apart := recombines.behind.2
  rw [oldBehind, newBehind] at apart
  norm_num [average] at apart

end Split

end Foghorn.Probe
