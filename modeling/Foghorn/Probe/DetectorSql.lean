import Foghorn.Std.Rollup
import Foghorn.Core.JudgedSql
import Foghorn.Probe.Detector

/-!
# The detector's query

`noisySql` chains the aggregations as the query does, over the shared fragment with nobody
excused. `noisySql_eq` says that it finds the rows of `noisyRows`.
-/

namespace Foghorn.Probe

open Foghorn.Std Foghorn.Core Truth

/-- A row of `spread`. -/
structure SpreadRow where
  deploymentId : String
  minorityIndexers : Nat
  minorityTotal : Nat
  concentration : Option ℚ

/-- How the faults of a deployment spread, from the times of its indexers. -/
def spreadRow (deployment : String) (times : List Nat) : SpreadRow where
  deploymentId := deployment
  minorityIndexers := times.length
  minorityTotal := times.sum
  concentration := ratio (times.max?.map fun most => (most : ℚ)) (some (times.sum : ℚ))

def spread (minority : List ((String × String) × Nat)) : List SpreadRow :=
  (groupBy (fun entry => entry.1.1) minority).map fun group =>
    spreadRow group.1 (group.2.map Prod.snd)

def totals (judged : List JudgedRow) : List NoisyRow :=
  (groupBy JudgedRow.deploymentId (judged.filter fun row => row.responseHash.isSome)).map
    fun group => ⟨group.1, countDistinct JudgedRow.probeId (fun _ => true) group.2,
      countDistinct JudgedRow.probeId JudgedRow.fault group.2⟩

/-- The conditions on a deployment. -/
def qualifies (t : NoisyRow) (s : SpreadRow) : Truth :=
  let often : Truth := some (decide (3 ≤ t.divergent))
  let material := compare (fun rate least => decide (least ≤ rate))
    (ratio (some (t.divergent : ℚ)) (some (t.total : ℚ))) (some (1 / 5 : ℚ))
  let several : Truth := some (decide (2 ≤ s.minorityIndexers))
  let rotates := compare (fun share most => decide (share ≤ most)) s.concentration (some (3 / 5 : ℚ))
  ((often.and material).and several).and rotates

/-- The query of `detect_nondeterministic`. -/
def noisySql (now : Int) (db : Db) : List NoisyRow :=
  let judged := judgedProbesSql db (now - sevenDays) false
  (totals judged).flatMap fun t =>
  (joined (spread (minority judged)) fun s =>
    equal (some s.deploymentId) (some t.deploymentId)).flatMap fun s =>
    if (qualifies t s).holds then [t] else []

section Query

variable {judged : List JudgedRow} {deployment : String}

/-- A deployment with faults has one row of `spread`. -/
theorem joined_spread (judged : List JudgedRow) (deployment : String) :
    (joined (spread (minority judged)) fun s => equal (some s.deploymentId) (some deployment)) =
      if minorityTimes judged deployment = [] then []
      else [spreadRow deployment (minorityTimes judged deployment)] := by
  have distinct : ((spread (minority judged)).map SpreadRow.deploymentId).Nodup := by
    rw [spread, List.map_map]
    exact groupBy_keys_nodup _ _
  rw [joined_key (Table.mk (spread (minority judged)) distinct) deployment]
  by_cases faultless : minorityTimes judged deployment = []
  · have absent : (Table.mk (spread (minority judged)) distinct).lookup deployment = none := by
      refine Table.lookup_eq_none_iff.mpr fun row stored same => ?_
      obtain ⟨⟨name, entries⟩, grouped, rfl⟩ := List.mem_map.mp stored
      obtain rfl : name = deployment := same
      obtain ⟨⟨entry, listed, about⟩, -⟩ := mem_groupBy.mp grouped
      have times := List.map_eq_nil_iff.mp faultless
      exact List.filter_eq_nil_iff.mp times entry listed (decide_eq_true about)
    rw [absent, if_pos faultless]
    rfl
  · have present : (Table.mk (spread (minority judged)) distinct).lookup deployment =
        some (spreadRow deployment (minorityTimes judged deployment)) := by
      obtain ⟨entry, listed⟩ := List.exists_mem_of_ne_nil _ fun none_ => faultless
        (List.map_eq_nil_iff.mpr none_)
      obtain ⟨stored, about⟩ := List.mem_filter.mp listed
      refine Table.lookup_eq_some_iff.mpr ⟨List.mem_map.mpr ⟨(deployment, _), ?_, rfl⟩, rfl⟩
      exact mem_groupBy.mpr ⟨⟨entry, stored, of_decide_eq_true about⟩, rfl⟩
    rw [present, if_neg faultless]
    rfl

/-- An indexer of the minority was at fault at least once. -/
theorem minorityTimes_pos {times : Nat} (listed : times ∈ minorityTimes judged deployment) :
    0 < times := by
  rw [minorityTimes_eq, List.mem_map] at listed
  obtain ⟨key, atFault, rfl⟩ := listed
  obtain ⟨position, held, same⟩ := mem_minorityKeys.mp (List.mem_map_of_mem atFault)
  exact List.countP_pos_iff.mpr ⟨position, held, decide_eq_true same⟩

/-- The query's rate condition is that a fifth of the probes diverged. -/
theorem material_iff {total divergent : Nat} (positive : 0 < total) :
    (compare (fun rate least => decide (least ≤ rate))
      (ratio (some (divergent : ℚ)) (some (total : ℚ))) (some (1 / 5 : ℚ))).holds ↔
        total ≤ 5 * divergent := by
  have denominator : (0 : ℚ) < total := Nat.cast_pos.mpr positive
  have rate : ratio (some (divergent : ℚ)) (some (total : ℚ)) = some (divergent / total : ℚ) := by
    simp [ratio, denominator.ne']
  rw [rate, compare_some, holds_some, decide_eq_true_eq, le_div_iff₀ denominator,
    div_mul_eq_mul_div, one_mul, div_le_iff₀ (by decide), mul_comm]
  exact_mod_cast Iff.rfl

/-- The query's spread condition is that nobody has more than three fifths. -/
theorem rotates_iff {times : List Nat} (positive : ∀ count ∈ times, 0 < count) (some_ : times ≠ []) :
    (compare (fun share most => decide (share ≤ most)) (spreadRow deployment times).concentration
      (some (3 / 5 : ℚ))).holds ↔ ∀ most ∈ times, 5 * most ≤ 3 * times.sum := by
  obtain ⟨most, greatest⟩ := Option.ne_none_iff_exists'.mp fun none_ =>
    some_ (List.max?_eq_none_iff.mp none_)
  obtain ⟨listed, above⟩ := List.max?_eq_some_iff.mp greatest
  have all : (0 : ℚ) < times.sum :=
    Nat.cast_pos.mpr (Nat.lt_of_lt_of_le (positive most listed) (List.single_le_sum (by simp) most listed))
  have share : (spreadRow deployment times).concentration = some (most / times.sum : ℚ) := by
    rw [spreadRow, greatest]
    exact if_neg all.ne'
  rw [share, compare_some, holds_some, decide_eq_true_eq, div_le_div_iff₀ all (by decide)]
  have exact_ : (most : ℚ) * 5 ≤ 3 * times.sum ↔ most * 5 ≤ 3 * times.sum := by exact_mod_cast Iff.rfl
  rw [exact_]
  constructor
  · intro within count counted
    have := above count counted
    omega
  · intro within
    have := within most listed
    omega

/-- What the query asks of a deployment with faults is what makes it noisy. -/
theorem qualifies_iff {rows : List JudgedRow} (group : rows ≠ [])
    (faulty : minorityTimes judged deployment ≠ []) :
    (qualifies ⟨deployment, countDistinct JudgedRow.probeId (fun _ => true) rows,
      countDistinct JudgedRow.probeId JudgedRow.fault rows⟩
      (spreadRow deployment (minorityTimes judged deployment))).holds ↔
        isNoisy (countDistinct JudgedRow.probeId (fun _ => true) rows)
          (countDistinct JudgedRow.probeId JudgedRow.fault rows)
          (minorityTimes judged deployment) := by
  have positive : 0 < countDistinct JudgedRow.probeId (fun _ => true) rows := by
    obtain ⟨row, listed⟩ := List.exists_mem_of_ne_nil _ group
    exact List.length_pos_of_mem (List.mem_dedup.mpr (List.mem_map_of_mem
      (List.mem_filter.mpr ⟨listed, rfl⟩)))
  rw [qualifies, holds_and, holds_and, holds_and, Bool.and_eq_true, Bool.and_eq_true,
    Bool.and_eq_true, material_iff positive, rotates_iff (fun _ => minorityTimes_pos) faulty,
    isNoisy_iff, holds_some, holds_some, decide_eq_true_eq, decide_eq_true_eq, and_assoc, and_assoc]
  rfl

end Query

/-- The query finds the noisy deployments. -/
theorem noisySql_eq (now : Int) (db : Db) : noisySql now db = noisyRows now db := by
  rw [noisySql, noisyRows, judgedProbesSql_eq, totals, List.filterMap_eq_flatMap_toList,
    List.flatMap_map]
  refine List.flatMap_congr fun entry grouped => ?_
  obtain ⟨deployment, rows⟩ := entry
  have group : rows ≠ [] := by
    obtain ⟨⟨row, listed, about⟩, rfl⟩ := mem_groupBy.mp grouped
    exact List.ne_nil_of_mem (List.mem_filter.mpr ⟨listed, decide_eq_true about⟩)
  have times : ((minority (judgedProbes db (now - sevenDays) false)).filter fun entry =>
      entry.1.1 = deployment).map Prod.snd =
        minorityTimes (judgedProbes db (now - sevenDays) false) deployment := rfl
  simp only [joined_spread, times]
  by_cases faultless : minorityTimes (judgedProbes db (now - sevenDays) false) deployment = []
  · have quiet : isNoisy (countDistinct JudgedRow.probeId (fun _ => true) rows)
        (countDistinct JudgedRow.probeId JudgedRow.fault rows) [] = false := by
      simp [isNoisy]
    rw [if_pos faultless, faultless, quiet]
    rfl
  · rw [if_neg faultless, List.flatMap_singleton]
    simp only [qualifies_iff group faultless]
    split
    · rfl
    · rfl

end Foghorn.Probe
