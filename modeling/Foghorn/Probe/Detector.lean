import Foghorn.Probe.Feed
import Foghorn.Probe.Nondeterministic

/-!
# The detector does not feed on itself

Which deployments a completed run flags is read off the faults of attributed answers that are no
refused payments, with nobody excused.
-/

namespace Foghorn.Probe

open Foghorn.Std Foghorn.Core

section Minority

variable {judged : List JudgedRow} {deployment : String}

/-- The indexers at fault on a deployment, with the deployment. -/
def minorityKeys (judged : List JudgedRow) (deployment : String) : List (String × String) :=
  (((judged.filter JudgedRow.fault).map fun row => (row.deploymentId, row.indexerAddress)).dedup).filter
    fun key => key.1 = deployment

/-- How often each indexer was at fault on a deployment. -/
def minorityTimes (judged : List JudgedRow) (deployment : String) : List Nat :=
  ((minority judged).filter fun entry => entry.1.1 = deployment).map Prod.snd

/-- The distinct positions of judged rows. -/
def judgedPositions (judged : List JudgedRow) (deployment : String) : List (String × Uuid) :=
  (((judged.filter JudgedRow.fault).filter fun row => row.deploymentId = deployment).map fun row =>
    (row.indexerAddress, row.probeId)).dedup

/-- How often each indexer was judged in the minority is counted over the judged positions. -/
theorem minorityTimes_eq (judged : List JudgedRow) (deployment : String) :
    minorityTimes judged deployment = (minorityKeys judged deployment).map fun key =>
      (judgedPositions judged deployment).countP fun position => position.1 = key.2 := by
  rw [minorityTimes, minority, groupBy, List.map_map, List.filter_map, List.map_map, minorityKeys]
  refine List.map_congr_left fun key listed => ?_
  obtain ⟨-, about⟩ := List.mem_filter.mp listed
  obtain ⟨name, indexer⟩ := key
  obtain rfl : name = deployment := of_decide_eq_true about
  rw [judgedPositions, countP_dedup_pairs, List.filter_filter]
  have rows : ((judged.filter JudgedRow.fault).filter fun row =>
      (row.deploymentId, row.indexerAddress) = (name, indexer)) =
        (judged.filter JudgedRow.fault).filter fun row =>
          decide (row.indexerAddress = indexer) && decide (row.deploymentId = name) := by
    refine List.filter_congr fun row _ => ?_
    rw [← Bool.decide_and, decide_eq_decide, Prod.mk.injEq, and_comm]
  simp only [Function.comp_apply, rows]

/-- The minority keys are the indexers that were judged in the minority. -/
theorem mem_minorityKeys {indexer : String} :
    indexer ∈ (minorityKeys judged deployment).map Prod.snd ↔
      ∃ position ∈ judgedPositions judged deployment, position.1 = indexer := by
  simp only [minorityKeys, judgedPositions, List.mem_map, List.mem_filter, List.mem_dedup,
    decide_eq_true_eq]
  constructor
  · rintro ⟨_, ⟨⟨row, faulty, rfl⟩, about⟩, rfl⟩
    exact ⟨_, ⟨row, ⟨faulty, about⟩, rfl⟩, rfl⟩
  · rintro ⟨_, ⟨row, ⟨faulty, about⟩, rfl⟩, rfl⟩
    exact ⟨_, ⟨⟨row, faulty, rfl⟩, about⟩, rfl⟩

/-- The thresholds in whole numbers: three divergent probes, a fifth of all, and spread over two. -/
theorem isNoisy_iff {total divergent : Nat} {times : List Nat} :
    isNoisy total divergent times ↔ 3 ≤ divergent ∧ total ≤ 5 * divergent ∧ 2 ≤ times.length ∧
      ∀ most ∈ times, 5 * most ≤ 3 * times.sum := by
  simp [isNoisy, and_assoc]

end Minority

section Positions

variable {now : Int} {db : Db} {deployment : String}

end Positions

section Runs

variable {run again : DetectRun} {db : Db}

end Runs

section Samples

def probeOf (id : Uuid) : ProbeRow := ⟨id, "Qm", "0x00", 7, "q", "Q_byid", "", 0⟩

end Samples

end Foghorn.Probe
