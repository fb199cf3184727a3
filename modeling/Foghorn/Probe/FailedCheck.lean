import Foghorn.Probe.Cycle
import Foghorn.Probe.Nondeterministic

/-!
# Checks that fail inside a cycle

Sybil detection that fails counts as one that found nothing, and the per-deployment check
keeps what it wrote before it failed. The sweeps at the end do not tell a finding that was
not evaluated from one that was cleared. `keepsFindings_iff` says what the board must be
like for such a cycle to lose nothing. Detection of non-determinism sweeps inside its own
statements, so its failure clears no flag that it did not evaluate.
-/

namespace Foghorn.Probe

open Foghorn.Std Foghorn.Core

/-- One call of `run_score_once`, with the detection it starts with. -/
structure ScoringPass where
  cycle : ScoreCycle
  detect : DetectRun
  /-- After how many statements the detection failed, if it did. -/
  detectStop : Option Nat

/-- What the measurements and the board are after a pass. -/
def ScoringPass.run (crates : Crates) (pass : ScoringPass) (before : Db × Board) : Db × Board :=
  (match pass.detectStop with
    | none => pass.detect.complete before.1
    | some executed => pass.detect.interrupted executed before.1,
   pass.cycle.run crates before.2)

/-- The penalty on a grade: the cluster that it was lowered for. -/
def penaltyOf (score : IndexerScore) : Option (Option String) :=
  if score.sybilFlag then some score.sybilClusterId else none

/-- The penalty on the grade of an indexer in a window. -/
def sybilPenalty (board : Board) (key : String × Int) : Option (Option String) :=
  ((board.indexerScore.lookup key).map ScoreRow.score).bind penaltyOf

/-- The key of an indexer's verdict of swarm membership. -/
def swarmKey (indexer : String) : String × String := (indexer, "sybil-swarm-member")

/-- A check that failed cleared nothing: the verdicts and penalties of sybil detection are as
they were, and so are the items of the per-deployment check that it did not reach; those it
reached are there, known since they were. A flag that is gone was evaluated. -/
structure KeepsFindings (crates : Crates) (pass : ScoringPass) (before after : Db × Board) : Prop where
  verdicts : pass.cycle.sybil = none → ∀ indexer,
    after.2.verdict.lookup (swarmKey indexer) = before.2.verdict.lookup (swarmKey indexer)
  penalties : pass.cycle.sybil = none → ∀ key, sybilPenalty after.2 key = sybilPenalty before.2 key
  unreached : (pass.cycle.issues crates).2 = false → ∀ key : String × String × String,
    key.2.1 ∈ allocationKinds → (∀ item ∈ (pass.cycle.issues crates).1, item.key ≠ key) →
      after.2.attentionItem.lookup key = before.2.attentionItem.lookup key
  reached : (pass.cycle.issues crates).2 = false → ∀ item ∈ (pass.cycle.issues crates).1,
    ∃ row, after.2.attentionItem.lookup item.key = some row ∧
      ∀ old ∈ before.2.attentionItem.lookup item.key, row.firstSeen = old.firstSeen
  flags : pass.detectStop.isSome → ∀ deployment, before.1.flagged deployment →
    after.1.flagged deployment = false → deployment ∉ pass.detect.noisy before.1

/-- The board holds no finding that a failed check would have had to renew: none that is older
than the cycle, and no penalty on a grade that the cycle computes anew. -/
structure NothingToLose (crates : Crates) (cycle : ScoreCycle) (board : Board) : Prop where
  verdicts : cycle.sybil = none → ∀ row ∈ board.verdict, row.finding.kind = "sybil-swarm-member" →
    cycle.start ≤ row.lastSeen
  penalties : cycle.sybil = none → ∀ row ∈ board.indexerScore, cycle.Lists crates row.key →
    row.score.sybilFlag = false
  items : (cycle.issues crates).2 = false → ∀ row ∈ board.attentionItem,
    row.finding.kind ∈ allocationKinds →
      (∀ item ∈ (cycle.issues crates).1, item.key ≠ row.finding.key) → cycle.start ≤ row.lastSeen

namespace ScoreCycle

variable {crates : Crates} {cycle : ScoreCycle} {board : Board}

section NoSybil

variable (failed : cycle.sybil = none)

include failed

private theorem sybilConfidence_inputs (evaluation : Evaluation) :
    (cycle.inputs crates evaluation).sybilConfidence = none := by
  rw [inputs, failed]
  rfl

/-- No score of a cycle whose sybil detection failed is penalised. -/
theorem penaltyOf_of_mem_scores {score : IndexerScore} (member : score ∈ cycle.scores crates) :
    penaltyOf score = none := by
  obtain ⟨evaluation, _, rfl⟩ := List.mem_map.mp member
  have clear : (cycle.outcome crates evaluation).score.sybilFlag = false :=
    (judge_of_no_sybil (sybilConfidence_inputs failed evaluation)).1
  rw [penaltyOf, clear]
  rfl

/-- And none of its verdicts is one of swarm membership. -/
theorem unreported_swarmKey (indexer : String) :
    lastUnder Verdict.key (swarmKey indexer) (cycle.verdicts crates) = none := by
  rw [lastUnder_eq_none_iff]
  intro verdict member same
  obtain ⟨evaluation, _, emitted⟩ := exists_of_mem_verdicts member
  exact (judge_of_no_sybil (sybilConfidence_inputs failed evaluation)).2 verdict emitted
    (congrArg Prod.snd same)

end NoSybil

/-- An item of the per-deployment check's kinds is reported by that check alone. -/
theorem unreported_of_unreached {key : String × String × String} (kind : key.2.1 ∈ allocationKinds)
    (unreached : ∀ item ∈ (cycle.issues crates).1, item.key ≠ key) :
    lastUnder AttentionItem.key key (cycle.attention crates) = none := by
  rw [lastUnder_eq_none_iff]
  intro item member same
  rcases List.mem_append.mp member with judged | issue
  · obtain ⟨evaluation, _, emitted⟩ := exists_of_mem_judgedItems judged
    have ofCheck : item.kind ∈ allocationKinds := by
      rw [← same] at kind
      exact kind
    rcases (mem_attention_judge emitted).1 with noData | badData | behind
    · exact absurd (noData ▸ ofCheck) (by decide)
    · exact absurd (badData ▸ ofCheck) (by decide)
    · exact absurd (behind ▸ ofCheck) (by decide)
  · exact unreached item issue same

section Completed

variable (completes : cycle.Completes crates)

include completes

/-- A verdict not reported again stands exactly when its row was seen after the cycle began. -/
theorem lookup_verdict_run {key : String × String}
    (unreported : lastUnder Verdict.key key (cycle.verdicts crates) = none) :
    (cycle.run crates board).verdict.lookup key = board.verdict.lookup key ↔
      ∀ row ∈ board.verdict.lookup key, cycle.start ≤ row.lastSeen := by
  obtain ⟨reports, same, _, swept⟩ := @verdict_run crates cycle board completes
  rw [← same] at unreported
  rw [swept, SeenTable.lookup_cycle_of_unreported unreported, SeenTable.filter_eq_self_iff]

/-- An item not reported again stands exactly when its row was seen after the cycle began. -/
theorem lookup_attention_run {key : String × String × String}
    (unreported : lastUnder AttentionItem.key key (cycle.attention crates) = none) :
    (cycle.run crates board).attentionItem.lookup key = board.attentionItem.lookup key ↔
      ∀ row ∈ board.attentionItem.lookup key, cycle.start ≤ row.lastSeen := by
  obtain ⟨reports, same, _, swept⟩ := @attention_run crates cycle board completes
  rw [← same] at unreported
  rw [swept, SeenTable.lookup_cycle_of_unreported unreported, SeenTable.filter_eq_self_iff]

/-- A reported item is on the board, first seen when it was before. -/
theorem reached_run {item : AttentionItem} (reported : item ∈ cycle.attention crates) :
    ∃ row, (cycle.run crates board).attentionItem.lookup item.key = some row ∧
      ∀ old ∈ board.attentionItem.lookup item.key, row.firstSeen = old.firstSeen := by
  obtain ⟨reports, same, stamped, swept⟩ := @attention_run crates cycle board completes
  obtain ⟨last, lastReported⟩ : ∃ last, lastUnder AttentionItem.key item.key
      (cycle.attention crates) = some last := exists_lastUnder reported
  rw [← same] at lastReported
  obtain ⟨row, found, _, kept⟩ := SeenTable.lookup_cycle_of_reported stamped lastReported
  rw [swept]
  exact ⟨row, found, kept⟩

/-- Without sybil detection a grade keeps its penalty exactly if the cycle does not compute it
or it has none. -/
theorem sybilPenalty_run_iff (failed : cycle.sybil = none) (key : String × Int) :
    sybilPenalty (cycle.run crates board) key = sybilPenalty board key ↔
      (cycle.Lists crates key → sybilPenalty board key = none) := by
  rw [← exists_mem_scores_iff, sybilPenalty, score_run completes]
  cases scored : lastUnder IndexerScore.key key (cycle.scores crates) with
  | none =>
    refine iff_of_true rfl ?_
    rintro ⟨score, listed, same⟩
    exact absurd same (lastUnder_eq_none_iff.mp scored score listed)
  | some score =>
    obtain ⟨listed, same⟩ := mem_of_lastUnder scored
    have clear : ((some score).or ((board.indexerScore.lookup key).map ScoreRow.score)).bind
        penaltyOf = none := penaltyOf_of_mem_scores failed listed
    rw [clear]
    exact ⟨fun kept _ => kept.symm, fun lost => (lost ⟨score, listed, same⟩).symm⟩

end Completed

end ScoreCycle

/-- A failed detection removes no flag that it found still deserved. -/
theorem notNoisy_of_interrupted {run : DetectRun} {db : Db} {executed : Nat} {deployment : String}
    (flagged : db.flagged deployment)
    (cleared : (run.interrupted executed db).flagged deployment = false) :
    deployment ∉ run.noisy db := by
  intro noisy
  have stands : (run.interrupted executed db).flagged deployment := by
    rw [flagged_interrupted]
    split
    · exact Or.inl flagged
    · exact noisy
  rw [cleared] at stands
  cases stands

private theorem sybilPenalty_eq_none_iff {board : Board} {key : String × Int} :
    sybilPenalty board key = none ↔
      ∀ row ∈ board.indexerScore, row.key = key → row.score.sybilFlag = false := by
  cases stored : board.indexerScore.lookup key with
  | none =>
    refine iff_of_true (by rw [sybilPenalty, stored]; rfl) fun row member same => ?_
    exact absurd same (Table.lookup_eq_none_iff.mp stored row member)
  | some row =>
    obtain ⟨member, rfl⟩ := Table.lookup_eq_some_iff.mp stored
    have flag : sybilPenalty board row.key = none ↔ row.score.sybilFlag = false := by
      simp [sybilPenalty, stored, penaltyOf]
    rw [flag]
    refine ⟨fun clear other listed same => ?_, fun all => all row member rfl⟩
    rw [Table.eq_of_key_eq listed member same]
    exact clear

/-- When a cycle ends in spite of failed checks, it keeps what only they can establish exactly
if the board held nothing for them to renew. -/
theorem keepsFindings_iff {crates : Crates} {pass : ScoringPass} {before : Db × Board}
    (completes : pass.cycle.Completes crates) :
    KeepsFindings crates pass before (pass.run crates before) ↔
      NothingToLose crates pass.cycle before.2 := by
  constructor
  · intro keeps
    refine ⟨fun failed row member kind => ?_, fun failed row member listed => ?_,
      fun failed row member kind unreached => ?_⟩
    · have same := keeps.verdicts failed row.finding.indexerAddress
      have recent := (ScoreCycle.lookup_verdict_run completes
        (ScoreCycle.unreported_swarmKey failed row.finding.indexerAddress)).mp same
      refine recent row (Table.lookup_eq_some_iff.mpr ⟨member, ?_⟩)
      exact Prod.ext rfl kind
    · have same := keeps.penalties failed row.key
      exact sybilPenalty_eq_none_iff.mp
        ((ScoreCycle.sybilPenalty_run_iff completes failed row.key).mp same listed) row member rfl
    · have same := keeps.unreached failed row.finding.key kind unreached
      have recent := (ScoreCycle.lookup_attention_run completes
        (ScoreCycle.unreported_of_unreached kind unreached)).mp same
      exact recent row (Table.lookup_of_mem member)
  · intro safe
    refine ⟨fun failed indexer => ?_, fun failed key => ?_, fun failed key kind unreached => ?_,
      fun failed item reported => ?_, fun failed deployment flagged cleared => ?_⟩
    · refine (ScoreCycle.lookup_verdict_run completes
        (ScoreCycle.unreported_swarmKey failed indexer)).mpr fun row found => ?_
      obtain ⟨member, same⟩ := Table.lookup_eq_some_iff.mp found
      exact safe.verdicts failed row member (congrArg Prod.snd same)
    · refine (ScoreCycle.sybilPenalty_run_iff completes failed key).mpr fun listed => ?_
      rw [sybilPenalty_eq_none_iff]
      rintro row member rfl
      exact safe.penalties failed row member listed
    · refine (ScoreCycle.lookup_attention_run completes
        (ScoreCycle.unreported_of_unreached kind unreached)).mpr fun row found => ?_
      obtain ⟨member, rfl⟩ := Table.lookup_eq_some_iff.mp found
      exact safe.items failed row member kind unreached
    · exact ScoreCycle.reached_run completes (List.mem_append_right _ reported)
    · obtain ⟨executed, stopped⟩ := Option.isSome_iff_exists.mp failed
      rw [ScoringPass.run, stopped] at cleared
      exact notNoisy_of_interrupted flagged cleared

section Samples

/-- A pass on a day after the answer of `0xa`, over what sybil detection returned. -/
def swarmPass (day : Int) (sybil : Option SybilMap) : ScoringPass where
  cycle := .undisturbed ScoringConfig.default sybil ⟨daysMicros day, oneAnswerDb, Table.empty⟩
  detect := ⟨daysMicros day, IterOrder.asInserted, IterOrder.asInserted⟩
  detectStop := none

/-- The board after a pass on the first day. -/
def dayOne (sybil : SybilMap) : Db × Board :=
  (swarmPass 1 (some sybil)).run (Crates.knowing [] []) (oneAnswerDb, Board.empty)

/-- A confident cluster around `0xa`. -/
def oneSwarm : SybilMap := Table.empty.insertNew ("0xa", "swarm", 8 / 10)

private theorem swarmPass_completes (sybil : Option SybilMap) :
    (swarmPass 2 sybil).cycle.Completes (Crates.knowing [] []) := by
  have loaded : ((swarmPass 2 none).cycle.allocHealth (Crates.knowing [] [])).isSome := by
    decide
  exact ⟨loaded, rfl⟩

/-- The next day sybil detection fails, and the verdict and the penalty are gone. -/
theorem failed_detection_clears :
    ((dayOne oneSwarm).2.verdict.lookup (swarmKey "0xa")).isSome ∧
      (((swarmPass 2 none).run (Crates.knowing [] []) (dayOne oneSwarm)).2.verdict.lookup
        (swarmKey "0xa")).isNone ∧
      sybilPenalty (dayOne oneSwarm).2 ("0xa", 30) = some (some "swarm") ∧
      sybilPenalty ((swarmPass 2 none).run (Crates.knowing [] []) (dayOne oneSwarm)).2
        ("0xa", 30) = none := by
  decide +kernel

/-- A pass whose sybil detection fails can drop a standing verdict. -/
theorem failed_detection_refutes :
    ¬ ∀ (crates : Crates) (pass : ScoringPass) (before : Db × Board)
      (_ : pass.cycle.Completes crates), KeepsFindings crates pass before (pass.run crates before) := by
  intro always
  have keeps := always _ (swarmPass 2 none) (dayOne oneSwarm) (swarmPass_completes none)
  obtain ⟨stood, gone, _, _⟩ := failed_detection_clears
  have same := keeps.verdicts rfl "0xa"
  rw [Option.isNone_iff_eq_none.mp gone] at same
  rw [← same] at stood
  cases stood

/-- Where no cluster was known, the same failure loses nothing. -/
theorem failed_detection_without_swarm :
    KeepsFindings (Crates.knowing [] []) (swarmPass 2 none) (dayOne Table.empty)
      ((swarmPass 2 none).run (Crates.knowing [] []) (dayOne Table.empty)) := by
  refine (keepsFindings_iff (swarmPass_completes none)).mpr ⟨fun _ => ?_, fun _ => ?_, fun failed => ?_⟩
  · have innocent : ∀ row ∈ (dayOne Table.empty).2.verdict.rows,
        row.finding.kind ≠ "sybil-swarm-member" := by
      decide +kernel
    exact fun row member kind => absurd kind (innocent row member)
  · have clear : ∀ row ∈ (dayOne Table.empty).2.indexerScore.rows, row.score.sybilFlag = false := by
      decide +kernel
    exact fun row member _ => clear row member
  · have succeeds : ((swarmPass 2 none).cycle.issues (Crates.knowing [] [])).2 = true := by
      decide
    rw [succeeds] at failed
    cases failed

end Samples

end Foghorn.Probe
