import Foghorn.Probe.Cycle

/-!
# The board and the latest cycle

Verdicts and items are swept after each cycle, scores never are. So a successful cycle
leaves its own verdicts and items, and the scores are its own exactly when it evaluated
every indexer and window that the board already listed. `shows_run_iff` is one cycle,
`board_shows_latest_iff` any sequence of cycles, failed ones among them.
-/

namespace Foghorn.Probe

open Foghorn.Std Foghorn.Core

namespace ScoreCycle

/-- A query of the per-deployment check read a row of the indexer. -/
def ChecksIndexer (crates : Crates) (cycle : ScoreCycle) (indexer : String) : Prop :=
  ∃ moment ∈ [cycle.servingAt, cycle.behindAt],
    ∃ row ∈ qosSince (moment.now - daysMicros (longestWindow cycle.cfg)) moment.db,
      crates.lower row.indexerAddress = indexer

/-- The board shows what the cycle found and nothing else. -/
structure Shows (crates : Crates) (cycle : ScoreCycle) (before after : Board) : Prop where
  scores : ∀ key, (after.indexerScore.lookup key).map ScoreRow.score =
    lastUnder IndexerScore.key key (cycle.scores crates)
  verdicts : SeenTable.HoldsExactly (cycle.verdicts crates) before.verdict after.verdict
  attention : SeenTable.HoldsExactly (cycle.attention crates) before.attentionItem after.attentionItem
  scored : ∀ row ∈ after.indexerScore, cycle.Lists crates row.key
  judged : ∀ row ∈ after.verdict, ∃ window, row.finding.windowDays = some window ∧
    cycle.Lists crates (row.finding.indexerAddress, window)
  attended : ∀ row ∈ after.attentionItem,
    (∃ window, cycle.Lists crates (row.finding.indexerAddress, window)) ∨
      cycle.ChecksIndexer crates row.finding.indexerAddress

/-- The cycle evaluates every indexer and window that has a score. -/
def EvaluatesAll (crates : Crates) (cycle : ScoreCycle) (board : Board) : Prop :=
  ∀ row ∈ board.indexerScore, cycle.Lists crates row.key

variable {crates : Crates} {cycle : ScoreCycle} {board : Board}

private theorem lists_of_mem_verdicts {verdict : Verdict}
    (member : verdict ∈ cycle.verdicts crates) :
    ∃ window, verdict.windowDays = some window ∧
      cycle.Lists crates (verdict.indexerAddress, window) := by
  obtain ⟨evaluation, evaluated, emitted⟩ := exists_of_mem_verdicts member
  have concerns := concerns_of_mem_judge emitted
  refine ⟨evaluation.window, concerns.window, ?_⟩
  rw [concerns.indexer]
  exact lists_of_mem_evaluations evaluated

private theorem evaluated_of_mem_attention {item : AttentionItem}
    (member : item ∈ cycle.attention crates) :
    (∃ window, cycle.Lists crates (item.indexerAddress, window)) ∨
      cycle.ChecksIndexer crates item.indexerAddress := by
  rcases List.mem_append.mp member with judged | issue
  · obtain ⟨evaluation, evaluated, emitted⟩ := exists_of_mem_judgedItems judged
    refine Or.inl ⟨evaluation.window, ?_⟩
    rw [(mem_attention_judge emitted).2]
    exact lists_of_mem_evaluations evaluated
  · rcases fromServing_of_mem_issues issue with serving | behind
    · exact Or.inr ⟨cycle.servingAt, by simp, serving.indexer⟩
    · exact Or.inr ⟨cycle.behindAt, by simp, behind.indexer⟩

/-- A score that nobody evaluated stays, so the cycle must have evaluated all of them. -/
theorem evaluatesAll_of_scores (completes : cycle.Completes crates)
    (scores : ∀ key, ((cycle.run crates board).indexerScore.lookup key).map ScoreRow.score =
      lastUnder IndexerScore.key key (cycle.scores crates)) : cycle.EvaluatesAll crates board := by
  intro row member
  have stored := scores row.key
  rw [score_run completes, Table.lookup_of_mem member] at stored
  rw [← exists_mem_scores_iff]
  by_contra unscored
  have none : lastUnder IndexerScore.key row.key (cycle.scores crates) = none :=
    lastUnder_eq_none_iff.mpr fun score listed same => unscored ⟨score, listed, same⟩
  rw [none] at stored
  cases stored

/-- A cycle that evaluates all leaves on the board exactly the scores it computed. -/
theorem scores_of_evaluatesAll (completes : cycle.Completes crates)
    (all : cycle.EvaluatesAll crates board) (key : String × Int) :
    ((cycle.run crates board).indexerScore.lookup key).map ScoreRow.score =
      lastUnder IndexerScore.key key (cycle.scores crates) := by
  rw [score_run completes]
  cases scored : lastUnder IndexerScore.key key (cycle.scores crates) with
  | some score => rfl
  | none =>
    cases stored : board.indexerScore.lookup key with
    | none => rfl
    | some row =>
      obtain rfl := Table.key_of_lookup stored
      obtain ⟨score, listed, same⟩ :=
        exists_mem_scores_iff.mpr (all row (Table.mem_of_lookup stored))
      exact absurd same (lastUnder_eq_none_iff.mp scored score listed)

/-- After a successful cycle the board shows it exactly when it evaluated every listed score. -/
theorem shows_run_iff (completes : cycle.Completes crates) (older : OlderThan cycle.start board) :
    cycle.Shows crates board (cycle.run crates board) ↔ cycle.EvaluatesAll crates board := by
  refine ⟨fun shows => evaluatesAll_of_scores completes shows.scores, fun all => ?_⟩
  have scores := scores_of_evaluatesAll completes all
  have verdicts : SeenTable.HoldsExactly (cycle.verdicts crates) board.verdict
      (cycle.run crates board).verdict := by
    obtain ⟨reports, same, stamped, swept⟩ := @verdict_run crates cycle board completes
    rw [← same, swept]
    exact SeenTable.holdsExactly_cycle stamped older.verdict
  have attention : SeenTable.HoldsExactly (cycle.attention crates) board.attentionItem
      (cycle.run crates board).attentionItem := by
    obtain ⟨reports, same, stamped, swept⟩ := @attention_run crates cycle board completes
    rw [← same, swept]
    exact SeenTable.holdsExactly_cycle stamped older.attention
  refine ⟨scores, verdicts, attention, fun row member => ?_, fun row member => ?_,
    fun row member => ?_⟩
  · have last := scores row.key
    rw [Table.lookup_of_mem member] at last
    obtain ⟨listed, same⟩ := mem_of_lastUnder last.symm
    exact exists_mem_scores_iff.mp ⟨row.score, listed, same⟩
  · exact lists_of_mem_verdicts (verdicts.mem member)
  · exact evaluated_of_mem_attention (attention.mem member)

end ScoreCycle

/-- Cycles one after the other. -/
def runCycles (crates : Crates) (cycles : List ScoreCycle) (board : Board) : Board :=
  runAll (fun cycle board => cycle.run crates board) cycles board

private theorem olderThan_runCycles {crates : Crates} {cycles : List ScoreCycle} {board : Board}
    {bound : Int}
    (early : ∀ cycle ∈ cycles, ∀ n, cycle.clock n < bound) (older : OlderThan bound board) :
    OlderThan bound (runCycles crates cycles board) :=
  runAll_preserves (OlderThan bound) older fun cycle member _ holds =>
    ScoreCycle.olderThan_run (early cycle member) holds

/-- In a sequence of cycles, each begun after the last write of those before it, the board
shows every successful cycle exactly when each of them evaluated what the board listed
when it began. -/
theorem board_shows_latest_iff {crates : Crates} {cycles : List ScoreCycle} {board : Board}
    (inOrder : cycles.Pairwise fun earlier later => ∀ n, earlier.clock n < later.start)
    (older : ∀ cycle ∈ cycles, OlderThan cycle.start board) :
    (∀ earlier cycle later, cycles = earlier ++ cycle :: later → cycle.Succeeds crates →
      cycle.Shows crates (runCycles crates earlier board)
        (cycle.run crates (runCycles crates earlier board))) ↔
    ∀ earlier cycle later, cycles = earlier ++ cycle :: later → cycle.Succeeds crates →
      cycle.EvaluatesAll crates (runCycles crates earlier board) := by
  have reached : ∀ earlier cycle later, cycles = earlier ++ cycle :: later →
      OlderThan cycle.start (runCycles crates earlier board) := by
    intro earlier cycle later split
    subst split
    apply olderThan_runCycles
    · intro before member
      exact (List.pairwise_append.mp inOrder).2.2 before member cycle List.mem_cons_self
    · exact older cycle (List.mem_append_right _ List.mem_cons_self)
  constructor
  · intro shows earlier cycle later split succeeds
    exact (ScoreCycle.shows_run_iff succeeds.1 (reached earlier cycle later split)).mp
      (shows earlier cycle later split succeeds)
  · intro evaluates earlier cycle later split succeeds
    exact (ScoreCycle.shows_run_iff succeeds.1 (reached earlier cycle later split)).mpr
      (evaluates earlier cycle later split succeeds)

section Samples

/-- A cycle on some day after that answer, with the default windows of 7 and 30 days. -/
def ageingCycle (day : Int) : ScoreCycle :=
  .undisturbed ScoringConfig.default (some Table.empty) ⟨daysMicros day, oneAnswerDb, Table.empty⟩

/-- A week later the answer has left the short window, but its score has not. -/
theorem aged_score_survives :
    (((ageingCycle 8).run (Crates.knowing [] [])
      (runCycles (Crates.knowing [] []) [ageingCycle 1] Board.empty)).indexerScore.lookup
        ("0xa", 7)).isSome ∧
    (lastUnder IndexerScore.key ("0xa", 7)
      ((ageingCycle 8).scores (Crates.knowing [] []))).isNone := by
  decide +kernel

private theorem ageing_inOrder {first second : Int} (apart : daysMicros first < daysMicros second) :
    [ageingCycle first, ageingCycle second].Pairwise
      fun earlier later => ∀ n, earlier.clock n < later.start := by
  rw [List.pairwise_pair]
  exact fun _ => apart

private theorem olderThan_empty (bound : Int) : OlderThan bound Board.empty :=
  ⟨fun row member => absurd member (Table.not_mem_empty row),
    fun row member => absurd member (Table.not_mem_empty row)⟩

/-- An indexer no longer evaluated keeps a score that the latest cycle did not compute. -/
theorem stale_score_refutes :
    ¬ ∀ (crates : Crates) (cycles : List ScoreCycle) (board : Board)
      (_ : cycles.Pairwise fun earlier later => ∀ n, earlier.clock n < later.start)
      (_ : ∀ cycle ∈ cycles, OlderThan cycle.start board) (earlier : List ScoreCycle)
      (cycle : ScoreCycle) (later : List ScoreCycle) (_ : cycles = earlier ++ cycle :: later)
      (_ : cycle.Succeeds crates),
      cycle.Shows crates (runCycles crates earlier board)
        (cycle.run crates (runCycles crates earlier board)) := by
  intro always
  have succeeds : (ageingCycle 8).Succeeds (Crates.knowing [] []) :=
    ⟨⟨by decide, rfl⟩, rfl, by decide⟩
  have shows := always _ [ageingCycle 1, ageingCycle 8] Board.empty (ageing_inOrder (by decide))
    (fun _ _ => olderThan_empty _) [ageingCycle 1] (ageingCycle 8) [] rfl succeeds
  obtain ⟨stands, unscored⟩ := aged_score_survives
  obtain ⟨row, found⟩ := Option.isSome_iff_exists.mp stands
  have same := shows.scores ("0xa", 7)
  rw [found, Option.isNone_iff_eq_none.mp unscored] at same
  cases same

/-- The day after, both windows still hold the answer. -/
theorem next_day_shown :
    (ageingCycle 2).Shows (Crates.knowing [] [])
      (runCycles (Crates.knowing [] []) [ageingCycle 1] Board.empty)
      ((ageingCycle 2).run (Crates.knowing [] [])
        (runCycles (Crates.knowing [] []) [ageingCycle 1] Board.empty)) := by
  have succeeds : (ageingCycle 2).Succeeds (Crates.knowing [] []) :=
    ⟨⟨by decide, rfl⟩, rfl, by decide⟩
  refine (board_shows_latest_iff (ageing_inOrder (by decide)) fun _ _ => olderThan_empty _).mpr ?_
    [ageingCycle 1] (ageingCycle 2) [] rfl succeeds
  intro earlier cycle later split _
  rcases earlier with _ | ⟨first, _ | ⟨second, rest⟩⟩
  · exact fun row member => absurd member (Table.not_mem_empty row)
  · obtain ⟨rfl, rfl, rfl⟩ : ageingCycle 1 = first ∧ ageingCycle 2 = cycle ∧ [] = later := by
      simpa using split
    have scored : ∀ row ∈ (runCycles (Crates.knowing [] []) [ageingCycle 1]
        Board.empty).indexerScore.rows, ∃ score ∈ (ageingCycle 2).scores (Crates.knowing [] []),
          score.key = row.key := by
      decide +kernel
    exact fun row member => ScoreCycle.exists_mem_scores_iff.mp (scored row member)
  · simp at split

end Samples

end Foghorn.Probe
