import Foghorn.Probe.Scorer

/-!
# What a cycle leaves

A cycle that comes to its end has put its scores over the stored ones, reported its
verdicts and items, and swept the findings it did not stamp. `score_run`, `verdict_run`
and `attention_run` say so table by table; `olderThan_run` says that any cycle, also one
that fails, leaves nothing younger than its last statement.
-/

namespace Foghorn.Probe

open Foghorn.Std Foghorn.Core

/-- Whether every finding was last seen before `bound`. -/
structure OlderThan (bound : Int) (board : Board) : Prop where
  verdict : ∀ row ∈ board.verdict, row.lastSeen < bound
  attention : ∀ row ∈ board.attentionItem, row.lastSeen < bound

namespace BoardStatement

def scoreOf : BoardStatement → Option IndexerScore
  | .upsertScore score => some score
  | _ => none

def verdictOf : BoardStatement → Option Verdict
  | .upsertVerdict verdict => some verdict
  | _ => none

def itemOf : BoardStatement → Option AttentionItem
  | .upsertAttention item => some item
  | _ => none

def isSweep : BoardStatement → Bool
  | .sweepVerdicts _ => true
  | .sweepAttention _ => true
  | _ => false

/-- What the statements carry, each with its time. -/
def payloads {Payload : Type} (part : BoardStatement → Option Payload)
    (statements : List (Int × BoardStatement)) : List (Int × Payload) :=
  statements.filterMap fun entry => (part entry.2).map fun payload => (entry.1, payload)

variable {Payload : Type} {part : BoardStatement → Option Payload} {board : Board}
  {statements : List (Int × BoardStatement)}

private theorem map_snd_payloads :
    (payloads part statements).map Prod.snd = (statements.map Prod.snd).filterMap part := by
  simp [payloads, List.map_filterMap, List.filterMap_map, Function.comp_def]

private theorem time_of_mem_payloads {bound : Int} (late : ∀ entry ∈ statements, bound ≤ entry.1)
    {entry : Int × Payload} (member : entry ∈ payloads part statements) : bound ≤ entry.1 := by
  obtain ⟨statement, listed, carries⟩ := List.mem_filterMap.mp member
  obtain ⟨_, _, rfl⟩ := Option.map_eq_some_iff.mp carries
  exact late statement listed

/-- Statements write the scores among them, in order. -/
theorem indexerScore_runAll :
    (runAll exec statements board).indexerScore =
      putAll ((payloads scoreOf statements).map fun entry => ⟨entry.2, entry.1⟩)
        board.indexerScore := by
  rw [payloads, List.map_filterMap]
  apply runAll_project Board.indexerScore
  rintro ⟨now, statement⟩ _ reached
  cases statement <;> rfl

/-- Statements without a sweep report the verdicts among them, in order. -/
theorem verdict_runAll (reporting : ∀ entry ∈ statements, entry.2.isSweep = false) :
    (runAll exec statements board).verdict =
      SeenTable.reportAll (payloads verdictOf statements) board.verdict := by
  apply runAll_project Board.verdict
  rintro ⟨now, statement⟩ member reached
  have reports := reporting _ member
  cases statement with
  | sweepVerdicts start => cases reports
  | upsertScore score => rfl
  | upsertVerdict verdict => rfl
  | upsertAttention item => rfl
  | sweepAttention start => rfl

/-- Statements without a sweep report the attention items among them, in order. -/
theorem attentionItem_runAll (reporting : ∀ entry ∈ statements, entry.2.isSweep = false) :
    (runAll exec statements board).attentionItem =
      SeenTable.reportAll (payloads itemOf statements) board.attentionItem := by
  apply runAll_project Board.attentionItem
  rintro ⟨now, statement⟩ member reached
  have reports := reporting _ member
  cases statement with
  | sweepAttention start => cases reports
  | upsertScore score => rfl
  | upsertVerdict verdict => rfl
  | upsertAttention item => rfl
  | sweepVerdicts start => rfl

/-- A statement leaves no finding that is younger than the board and itself. -/
theorem olderThan_exec {bound : Int} {entry : Int × BoardStatement} (early : entry.1 < bound)
    (older : OlderThan bound board) : OlderThan bound (exec entry board) := by
  obtain ⟨now, statement⟩ := entry
  cases statement with
  | upsertScore score => exact ⟨older.verdict, older.attention⟩
  | upsertVerdict verdict =>
    refine ⟨fun row member => ?_, older.attention⟩
    rcases SeenTable.lastSeen_report member with old | same
    · exact older.verdict row old
    · exact same ▸ early
  | upsertAttention item =>
    refine ⟨older.verdict, fun row member => ?_⟩
    rcases SeenTable.lastSeen_report member with old | same
    · exact older.attention row old
    · exact same ▸ early
  | sweepVerdicts start =>
    exact ⟨fun row member => older.verdict row (Table.mem_deleteWhere.mp member).1, older.attention⟩
  | sweepAttention start =>
    exact ⟨older.verdict, fun row member => older.attention row (Table.mem_deleteWhere.mp member).1⟩

end BoardStatement

namespace ScoreCycle

open BoardStatement

variable {crates : Crates} {cycle : ScoreCycle} {board : Board}

section Stamped

variable {statements : List BoardStatement}

private theorem map_snd_stamped : (cycle.stamped statements).map Prod.snd = statements := by
  apply List.ext_getElem
  · simp [stamped]
  · intro n _ _
    simp [stamped]

private theorem exists_of_mem_stamped {entry : Int × BoardStatement}
    (member : entry ∈ cycle.stamped statements) :
    entry.2 ∈ statements ∧ ∃ n, entry.1 = cycle.clock n := by
  obtain ⟨n, inside, rfl⟩ := List.mem_mapIdx.mp member
  exact ⟨List.getElem_mem inside, n, rfl⟩

end Stamped

section Evaluations

variable {evaluation : Evaluation}

/-- A cycle evaluates, in each window, the indexers with a profile or an aggregate. -/
theorem mem_evaluations :
    evaluation ∈ cycle.evaluations crates ↔
      cycle.windows[evaluation.position]? = some evaluation.window ∧
        ((cycle.profiles crates).holds evaluation.address ∨
          (cycle.agg crates evaluation.window evaluation.position).holds evaluation.address) := by
  obtain ⟨address, window, position⟩ := evaluation
  simp only [evaluations, keys, List.mem_flatMap, List.mem_map, IterOrder.mem_arrange,
    List.mem_dedup, List.mem_append, Evaluation.mk.injEq, Prod.exists,
    List.mk_mem_zipIdx_iff_getElem?]
  constructor
  · rintro ⟨_, _, listed, _, held, rfl, rfl, rfl⟩
    exact ⟨listed, by simpa [Table.holds] using held⟩
  · rintro ⟨listed, held⟩
    exact ⟨window, position, listed, address, by simpa [Table.holds] using held, rfl, rfl, rfl⟩

/-- A cycle lists the key of each of its evaluations. -/
theorem lists_of_mem_evaluations (member : evaluation ∈ cycle.evaluations crates) :
    cycle.Lists crates evaluation.key :=
  ⟨evaluation.position, mem_evaluations.mp member⟩

private theorem key_outcome :
    (cycle.outcome crates evaluation).score.key = evaluation.key := key_judge

/-- Every listed indexer and window is scored. -/
theorem exists_mem_scores_iff {key : String × Int} :
    (∃ score ∈ cycle.scores crates, score.key = key) ↔ cycle.Lists crates key := by
  constructor
  · rintro ⟨score, member, rfl⟩
    obtain ⟨evaluation, evaluated, rfl⟩ := List.mem_map.mp member
    rw [key_outcome]
    exact lists_of_mem_evaluations evaluated
  · rintro ⟨position, configured, held⟩
    have evaluated := (@mem_evaluations crates cycle ⟨key.1, key.2, position⟩).mpr ⟨configured, held⟩
    exact ⟨_, List.mem_map_of_mem evaluated, key_outcome⟩

/-- A cycle's verdict comes from one of its evaluations. -/
theorem exists_of_mem_verdicts {verdict : Verdict} (member : verdict ∈ cycle.verdicts crates) :
    ∃ evaluation ∈ cycle.evaluations crates,
      verdict ∈ (cycle.outcome crates evaluation).verdicts := by
  obtain ⟨evaluation, chosen, emitted⟩ := List.mem_flatMap.mp member
  exact ⟨evaluation, (List.mem_filter.mp chosen).1, emitted⟩

/-- A cycle's judged item comes from one of its evaluations. -/
theorem exists_of_mem_judgedItems {item : AttentionItem} (member : item ∈ cycle.judgedItems crates) :
    ∃ evaluation ∈ cycle.evaluations crates,
      item ∈ (cycle.outcome crates evaluation).attention := by
  obtain ⟨evaluation, chosen, emitted⟩ := List.mem_flatMap.mp member
  exact ⟨evaluation, (List.mem_filter.mp chosen).1, emitted⟩

/-- The items of the per-deployment check come from what one of its two queries read. -/
theorem fromServing_of_mem_issues {item : AttentionItem} (member : item ∈ (cycle.issues crates).1) :
    FromServing crates cycle.cfg cycle.servingAt.now cycle.servingAt.db item ∨
      FromServing crates cycle.cfg cycle.behindAt.now cycle.behindAt.db item := by
  unfold issues at member
  split at member
  · cases member
  · rename_i serving read
    have emitted : item ∈ serving ++ behindDeployments crates cycle.cfg cycle.issueOrders
        cycle.behindAt.now cycle.behindAt.db := by
      dsimp only at member
      split at member
      · exact member
      · exact List.mem_of_mem_take member
    rcases List.mem_append.mp emitted with erroring | behind
    · exact Or.inl (fromServing_of_mem_servingErrors read erroring)
    · exact Or.inr (fromServing_of_mem_behindDeployments behind)

end Evaluations

/-- After a cycle every row is older than what comes after its clock. -/
theorem olderThan_run {bound : Int} (early : ∀ n, cycle.clock n < bound)
    (older : OlderThan bound board) : OlderThan bound (cycle.run crates board) := by
  apply runAll_preserves (OlderThan bound) older
  intro entry member reached holds
  have listed : entry ∈ cycle.stamped (cycle.program crates) := by
    split at member
    · exact member
    · exact List.mem_of_mem_take member
  obtain ⟨_, n, time⟩ := exists_of_mem_stamped listed
  exact olderThan_exec (time ▸ early n) holds

/-- Both sweeps. -/
def sweepFindings (start : Int) (board : Board) : Board where
  indexerScore := board.indexerScore
  verdict := board.verdict.sweep start
  attentionItem := board.attentionItem.sweep start

/-- What a cycle writes before it sweeps. -/
def emitted (crates : Crates) (cycle : ScoreCycle) : List BoardStatement :=
  (cycle.evaluations crates).flatMap (cycle.writes crates) ++
    (cycle.issues crates).1.map .upsertAttention

private theorem isSweep_of_mem_writes {evaluation : Evaluation} {statement : BoardStatement}
    (member : statement ∈ cycle.writes crates evaluation) : statement.isSweep = false := by
  unfold writes at member
  dsimp only at member
  rcases List.mem_cons.mp member with rfl | member
  · rfl
  · split at member
    · rcases List.mem_append.mp member with verdict | item
      · obtain ⟨_, _, rfl⟩ := List.mem_map.mp verdict
        rfl
      · obtain ⟨_, _, rfl⟩ := List.mem_map.mp item
        rfl
    · cases member

/-- Before its sweeps a cycle emits reports only. -/
theorem isSweep_of_mem_emitted {statement : BoardStatement}
    (member : statement ∈ cycle.emitted crates) : statement.isSweep = false := by
  rcases List.mem_append.mp member with judged | issue
  · obtain ⟨_, _, written⟩ := List.mem_flatMap.mp judged
    exact isSweep_of_mem_writes written
  · obtain ⟨_, _, rfl⟩ := List.mem_map.mp issue
    rfl

/-- What a cycle emits of one sort. -/
theorem filterMap_emitted {Payload : Type} (part : BoardStatement → Option Payload) :
    (cycle.emitted crates).filterMap part =
      ((cycle.evaluations crates).flatMap fun evaluation =>
        (part (.upsertScore (cycle.outcome crates evaluation).score)).toList ++
          if cycle.isPrimary evaluation then
            (cycle.outcome crates evaluation).verdicts.filterMap (fun v => part (.upsertVerdict v)) ++
              (cycle.outcome crates evaluation).attention.filterMap fun a => part (.upsertAttention a)
          else []) ++
        (cycle.issues crates).1.filterMap fun item => part (.upsertAttention item) := by
  have written : ∀ evaluation, (cycle.writes crates evaluation).filterMap part =
      (part (.upsertScore (cycle.outcome crates evaluation).score)).toList ++
        if cycle.isPrimary evaluation then
          (cycle.outcome crates evaluation).verdicts.filterMap (fun v => part (.upsertVerdict v)) ++
            (cycle.outcome crates evaluation).attention.filterMap fun a => part (.upsertAttention a)
        else [] := by
    intro evaluation
    rw [writes, List.filterMap_cons]
    cases part (.upsertScore (cycle.outcome crates evaluation).score) <;>
      cases cycle.isPrimary evaluation <;>
        simp [List.filterMap_append, List.filterMap_map]
  rw [emitted, List.filterMap_append, List.filterMap_flatMap, List.filterMap_map]
  simp only [written]
  rfl

private theorem scores_emitted :
    (cycle.emitted crates).filterMap scoreOf = cycle.scores crates := by
  simp [filterMap_emitted, scoreOf, scores, List.map_eq_flatMap]

private theorem verdicts_emitted :
    (cycle.emitted crates).filterMap verdictOf = cycle.verdicts crates := by
  simp [filterMap_emitted, verdictOf, verdicts, flatMap_filter]

private theorem attention_emitted :
    (cycle.emitted crates).filterMap itemOf = cycle.attention crates := by
  simp [filterMap_emitted, itemOf, attention, judgedItems, flatMap_filter]

/-- What a cycle carries of one sort, with the times at which it executed. -/
theorem map_snd_payloads_stamped {Payload : Type} (part : BoardStatement → Option Payload) :
    (payloads part (cycle.stamped (cycle.emitted crates))).map Prod.snd =
      (cycle.emitted crates).filterMap part := by
  rw [map_snd_payloads, map_snd_stamped]

private theorem start_le_of_mem_stamped {entry : Int × BoardStatement}
    (member : entry ∈ cycle.stamped (cycle.emitted crates)) : cycle.start ≤ entry.1 := by
  obtain ⟨_, n, time⟩ := exists_of_mem_stamped member
  exact time ▸ cycle.clocksAgree n

section Completed

variable (completes : cycle.Completes crates)

include completes

/-- A cycle that completes executes what it emits and sweeps. -/
theorem run_eq :
    cycle.run crates board =
      sweepFindings cycle.start
        (runAll BoardStatement.exec (cycle.stamped (cycle.emitted crates)) board) := by
  obtain ⟨loaded, whole⟩ := completes
  obtain ⟨health, isLoaded⟩ := Option.isSome_iff_exists.mp loaded
  have statements : cycle.program crates =
      cycle.emitted crates ++ [.sweepVerdicts cycle.start, .sweepAttention cycle.start] := by
    rw [program, isLoaded]
    rfl
  rw [run, whole, statements, stamped, List.mapIdx_append, runAll_append]
  rfl

/-- The scores of the cycle stand over those that were stored. -/
theorem score_run (key : String × Int) :
    ((cycle.run crates board).indexerScore.lookup key).map ScoreRow.score =
      (lastUnder IndexerScore.key key (cycle.scores crates)).or
        ((board.indexerScore.lookup key).map ScoreRow.score) := by
  have rows : (((payloads scoreOf (cycle.stamped (cycle.emitted crates))).map fun entry =>
      (⟨entry.2, entry.1⟩ : ScoreRow)).map ScoreRow.score) = cycle.scores crates := by
    rw [List.map_map, ← scores_emitted, ← map_snd_payloads_stamped]
    rfl
  rw [run_eq completes, sweepFindings, indexerScore_runAll, lookup_putAll, Option.map_or, ← rows,
    ← lastUnder_map ScoreRow.score]
  rfl

/-- A cycle reports its verdicts after its start and sweeps those seen before it. -/
theorem verdict_run :
    ∃ reports : List (Report Verdict), reports.map Prod.snd = cycle.verdicts crates ∧
      (∀ entry ∈ reports, cycle.start ≤ entry.1) ∧
      (cycle.run crates board).verdict =
        (SeenTable.reportAll reports board.verdict).sweep cycle.start := by
  refine ⟨payloads verdictOf (cycle.stamped (cycle.emitted crates)), ?_, ?_, ?_⟩
  · rw [map_snd_payloads_stamped, verdicts_emitted]
  · intro entry member
    exact time_of_mem_payloads (fun _ listed => start_le_of_mem_stamped listed) member
  · rw [run_eq completes, sweepFindings, verdict_runAll]
    intro entry member
    exact isSweep_of_mem_emitted (exists_of_mem_stamped member).1

/-- A cycle reports its items after its start and sweeps those seen before it. -/
theorem attention_run :
    ∃ reports : List (Report AttentionItem), reports.map Prod.snd = cycle.attention crates ∧
      (∀ entry ∈ reports, cycle.start ≤ entry.1) ∧
      (cycle.run crates board).attentionItem =
        (SeenTable.reportAll reports board.attentionItem).sweep cycle.start := by
  refine ⟨payloads itemOf (cycle.stamped (cycle.emitted crates)), ?_, ?_, ?_⟩
  · rw [map_snd_payloads_stamped, attention_emitted]
  · intro entry member
    exact time_of_mem_payloads (fun _ listed => start_le_of_mem_stamped listed) member
  · rw [run_eq completes, sweepFindings, attentionItem_runAll]
    intro entry member
    exact isSweep_of_mem_emitted (exists_of_mem_stamped member).1

end Completed

/-- A cycle during which no other loop writes and no statement fails. -/
def undisturbed (cfg : ScoringConfig) (sybil : Option SybilMap) (moment : Moment) : ScoreCycle where
  cfg := cfg
  start := moment.now
  clock _ := moment.now
  clocksAgree _ := Int.le_refl _
  sybil := sybil
  profilesAt := moment
  healthAt := moment
  lagAt := moment
  recentAt := moment
  windowAt _ := moment
  servingAt := moment
  behindAt := moment
  profileOrder := IterOrder.asInserted
  recentOrder := IterOrder.asInserted
  aggOrder _ := IterOrder.asInserted
  keyOrder _ := IterOrder.asInserted
  issueOrders := ⟨IterOrder.asInserted, IterOrder.asInserted, IterOrder.asInserted,
    IterOrder.asInserted⟩
  issuesStop := none
  stop := none

end ScoreCycle

/-- One paid answer of `0xa`, at the epoch. -/
def oneAnswerDb : Db :=
  { Db.empty with
    probe := Table.empty.insertNew ⟨1, "Qm", "0x00", 7, "q", "Q_byid", "", 0⟩
    observation := ⟨[⟨1, "0xa", some "hash", some 10, none, none, some 200, none, .exact 1, .paid,
      none, none, none⟩], by decide⟩ }

end Foghorn.Probe
