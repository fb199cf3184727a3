import Mathlib.Algebra.Order.Field.Basic
import Mathlib.Algebra.Order.Field.Rat
import Mathlib.Tactic.Linarith
import Foghorn.Core.AlertRuns

/-!
# Drift of a signal over a run

The baseline of a deployment is its signal at the last alert. Over a run the signal never stays
further from it than the percentage, so a slow drift arrives as one alert and the alerts chain.
-/

namespace Foghorn.Core

section Drift

/-- The signal differs from its baseline by enough: any signal from none. -/
def Drifted (signalMovePct baseline signal : ℚ) : Prop :=
  baseline = 0 ∧ 0 < signal ∨ 0 < baseline ∧ signalMovePct / 100 * baseline ≤ |signal - baseline|

/-- The signal is within the percentage of its baseline. -/
def Settled (signalMovePct baseline signal : ℚ) : Prop :=
  baseline = 0 ∧ signal = 0 ∨ 0 < baseline ∧ |signal - baseline| < signalMovePct / 100 * baseline

variable {signalMovePct baseline signal : ℚ}

private theorem settled_of_not_drifted (baseline_nonneg : 0 ≤ baseline) (signal_nonneg : 0 ≤ signal)
    (still : ¬ Drifted signalMovePct baseline signal) : Settled signalMovePct baseline signal := by
  rw [Drifted, not_or, not_and, not_and, not_lt, not_le] at still
  rcases baseline_nonneg.eq_or_lt with zero | positive
  · exact .inl ⟨zero.symm, le_antisymm (still.1 zero.symm) signal_nonneg⟩
  · exact .inr ⟨positive, still.2 positive⟩

private theorem settled_self (counts : 1 ≤ signalMovePct) (nonneg : 0 ≤ signal) :
    Settled signalMovePct signal signal := by
  rcases nonneg.eq_or_lt with zero | positive
  · exact .inl ⟨zero.symm, zero.symm⟩
  · refine .inr ⟨positive, ?_⟩
    rw [sub_self, abs_zero]
    have share : 0 < signalMovePct / 100 := by linarith
    exact mul_pos share positive

/-- A move that counts is a drift. -/
theorem atLeast_iff_drifted (counts : 1 ≤ signalMovePct) (baseline_nonneg : 0 ≤ baseline)
    (signal_nonneg : 0 ≤ signal) :
    (signalMove baseline signal).atLeast signalMovePct ↔
      Drifted signalMovePct baseline signal := by
  rcases baseline_nonneg.eq_or_lt with zero | positive
  · subst zero
    rcases signal_nonneg.eq_or_lt with zero | positive
    · subst zero
      have quiet : ¬ signalMovePct ≤ |(0 : ℚ)| := by
        rw [abs_zero, not_le]
        linarith
      simpa [signalMove, Drifted, Move.atLeast] using quiet
    · simp [signalMove, positive, Drifted, Move.atLeast]
  · have size : |100 * (signal - baseline) / baseline| = 100 * |signal - baseline| / baseline := by
      rw [abs_div, abs_mul, abs_of_pos positive, abs_of_pos (by norm_num : (0 : ℚ) < 100)]
    have percent : signalMove baseline signal = .percent (100 * (signal - baseline) / baseline) :=
      if_pos positive
    rw [percent, Move.atLeast, size, le_div_iff₀ positive, Drifted]
    constructor
    · intro far
      exact .inr ⟨positive, by linarith⟩
    · rintro (⟨zero, -⟩ | ⟨-, far⟩)
      · exact absurd zero positive.ne'
      · linarith

end Drift

section SignalRuns

/-- Every snapshot lists the deployment, and one signal on all its allocations there. -/
structure SignalRun (hash : String) (signal : Snapshot → ℚ) (snaps : List Snapshot) : Prop where
  listed : ∀ snap ∈ snaps, ∃ a ∈ snap.allocations, a.ipfsHash = hash
  level : ∀ snap ∈ snaps, ∀ a ∈ snap.allocations, a.ipfsHash = hash → a.signalGrt = signal snap
  nonneg : ∀ snap ∈ snaps, 0 ≤ signal snap

variable {amounts : AmountText} {choice : AlertChoice} {hash : String} {signal : Snapshot → ℚ}

private theorem SignalRun.of_append {before after : List Snapshot}
    (run : SignalRun hash signal (before ++ after)) : SignalRun hash signal before where
  listed snap there := run.listed snap (List.mem_append_left _ there)
  level snap there := run.level snap (List.mem_append_left _ there)
  nonneg snap there := run.nonneg snap (List.mem_append_left _ there)

/-- The allocation that speaks for the deployment in a snapshot of the run. -/
theorem SignalRun.lead {snaps : List Snapshot} (run : SignalRun hash signal snaps)
    {snap : Snapshot} (there : snap ∈ snaps) :
    ∃ lead, Leads snap.allocations lead ∧ lead.ipfsHash = hash ∧ lead.signalGrt = signal snap := by
  obtain ⟨a, listed, same⟩ := run.listed snap there
  obtain ⟨lead, leads, about⟩ := exists_leads listed
  exact ⟨lead, leads, about.trans same, run.level snap there lead leads.mem (about.trans same)⟩

variable {prev : StoredState} {snap : Snapshot} {lead : AllocSnap}

/-- From a stored baseline the signal moved when it drifted past the chosen percentage. -/
theorem storedMovedFrom_of_baseline {baseline : ℚ} (counts : 1 ≤ choice.signalMovePct)
    (stored : storedBaseline amounts prev lead.ipfsHash = some baseline)
    (baseline_nonneg : 0 ≤ baseline) (signal_nonneg : 0 ≤ lead.signalGrt)
    [Decidable (Drifted choice.signalMovePct baseline lead.signalGrt)] :
    storedMovedFrom amounts prev choice lead =
      if Drifted choice.signalMovePct baseline lead.signalGrt then some baseline else none := by
  rw [storedMovedFrom, stored, Option.filter_some]
  simp only [decide_eq_true_eq, atLeast_iff_drifted counts baseline_nonneg signal_nonneg]

/-- What an evaluation tells of the deployment, and the baseline it stores: the signal itself if
it has drifted from the old one. -/
theorem signal_step {baseline : ℚ} (on : choice.on .signal) (counts : 1 ≤ choice.signalMovePct)
    (later : prev ≠ ∅) (leads : Leads snap.allocations lead)
    (stored : storedBaseline amounts prev lead.ipfsHash = some baseline)
    (baseline_nonneg : 0 ≤ baseline) (signal_nonneg : 0 ≤ lead.signalGrt)
    [Decidable (Drifted choice.signalMovePct baseline lead.signalGrt)] :
    (evaluateStored amounts prev choice snap).1.filterMap (signalMoveOf lead.ipfsHash) =
        (if Drifted choice.signalMovePct baseline lead.signalGrt then [(baseline, lead.signalGrt)]
        else []) ∧
      storedBaseline amounts (evaluateStored amounts prev choice snap).2 lead.ipfsHash =
        some (if Drifted choice.signalMovePct baseline lead.signalGrt then lead.signalGrt
          else baseline) := by
  have moved := storedMovedFrom_of_baseline counts stored baseline_nonneg signal_nonneg
  constructor
  · rw [signalMoves_evaluateStored, leads, Option.map_some, Option.getD_some, if_pos ⟨on, later⟩,
      moved]
    split <;> rfl
  · rw [storedBaseline_evaluateStored leads, storedKeep, stored, moved]
    by_cases drifted : Drifted choice.signalMovePct baseline lead.signalGrt
    · simp only [if_pos drifted]
    · simp only [if_neg drifted]

/-- The first look stores the signal. -/
theorem signal_first (leads : Leads snap.allocations lead) :
    (evaluateStored amounts ∅ choice snap).1 = [] ∧
      storedBaseline amounts (evaluateStored amounts ∅ choice snap).2 lead.ipfsHash =
        some lead.signalGrt := by
  refine ⟨evaluateStored_empty, ?_⟩
  rw [storedBaseline_evaluateStored leads, storedKeep]
  rfl

private theorem Settled.nonneg {signalMovePct baseline level : ℚ}
    (settled : Settled signalMovePct baseline level) : 0 ≤ baseline := by
  rcases settled with ⟨zero, -⟩ | ⟨positive, -⟩
  · exact zero.ge
  · exact positive.le

/-- What holds after a run whose first and last snapshots carry the signals `first` and `latest`:
the events chain from `first` to the stored baseline, which `latest` is near. -/
structure Tracked (amounts : AmountText) (choice : AlertChoice) (hash : String)
    (first latest : ℚ) (run : List Alert × StoredState) (baseline : ℚ) : Prop where
  stored : storedBaseline amounts run.2 hash = some baseline
  settled : Settled choice.signalMovePct baseline latest
  chained : (run.1.filterMap (signalMoveOf hash)).map Prod.fst =
    (first :: (run.1.filterMap (signalMoveOf hash)).map Prod.snd).dropLast
  last : (first :: (run.1.filterMap (signalMoveOf hash)).map Prod.snd).getLast? = some baseline

/-- Another snapshot moves the baseline only together with an event. -/
theorem Tracked.step {first latest baseline : ℚ} {before : List Snapshot} (on : choice.on .signal)
    (counts : 1 ≤ choice.signalMovePct) (nonempty : before ≠ [])
    (tracked : Tracked amounts choice lead.ipfsHash first latest
      (evaluateRun amounts choice before) baseline)
    (leads : Leads snap.allocations lead) (nonneg : 0 ≤ lead.signalGrt) :
    ∃ next, Tracked amounts choice lead.ipfsHash first lead.signalGrt
      (evaluateRun amounts choice (before ++ [snap])) next := by
  classical
  obtain ⟨moves, kept⟩ := signal_step on counts (evaluateRun_ne_empty nonempty) leads
    tracked.stored tracked.settled.nonneg nonneg
  by_cases drifted : Drifted choice.signalMovePct baseline lead.signalGrt
  · rw [if_pos drifted] at moves kept
    refine ⟨lead.signalGrt, ?_, settled_self counts nonneg, ?_, ?_⟩
    · rw [evaluateRun_concat, kept]
    · rw [evaluateRun_concat, List.filterMap_append, moves, List.map_append, List.map_append,
        tracked.chained, ← List.cons_append]
      simp only [List.map_cons, List.map_nil, List.dropLast_concat]
      exact List.dropLast_append_getLast? _ tracked.last
    · rw [evaluateRun_concat, List.filterMap_append, moves, List.map_append, ← List.cons_append]
      exact List.getLast?_concat
  · rw [if_neg drifted] at moves kept
    refine ⟨baseline, ?_, settled_of_not_drifted tracked.settled.nonneg nonneg drifted, ?_, ?_⟩
    · rw [evaluateRun_concat, kept]
    · rw [evaluateRun_concat, List.filterMap_append, moves, List.append_nil]
      exact tracked.chained
    · rw [evaluateRun_concat, List.filterMap_append, moves, List.append_nil]
      exact tracked.last

/-- Over a run some baseline is tracked from the first signal to the last. -/
theorem exists_tracked (on : choice.on .signal) (counts : 1 ≤ choice.signalMovePct)
    {first : Snapshot} {rest : List Snapshot} (run : SignalRun hash signal (first :: rest)) :
    ∃ baseline, Tracked amounts choice hash (signal first)
      (signal ((first :: rest).getLast (List.cons_ne_nil _ _)))
      (evaluateRun amounts choice (first :: rest)) baseline := by
  induction rest using List.reverseRecOn with
  | nil =>
    obtain ⟨lead, leads, rfl, level⟩ := run.lead List.mem_cons_self
    obtain ⟨quiet, stored⟩ := @signal_first amounts choice _ _ leads
    refine ⟨signal first, ?_, settled_self counts (run.nonneg first List.mem_cons_self), ?_, ?_⟩
    · rw [evaluateRun_singleton, stored, level]
    · rw [evaluateRun_singleton, quiet]
      rfl
    · rw [evaluateRun_singleton, quiet]
      rfl
  | append_singleton rest snap ih =>
    have there : snap ∈ first :: (rest ++ [snap]) := by simp
    have earlier : SignalRun hash signal ((first :: rest) ++ [snap]) := run
    obtain ⟨baseline, tracked⟩ := ih earlier.of_append
    obtain ⟨lead, leads, rfl, level⟩ := run.lead there
    have nonneg : 0 ≤ lead.signalGrt := level ▸ run.nonneg snap there
    obtain ⟨next, after⟩ := tracked.step on counts (List.cons_ne_nil _ _) leads nonneg
    refine ⟨next, ?_⟩
    have last : (first :: (rest ++ [snap])).getLast (List.cons_ne_nil _ _) = snap := by simp
    rw [last, ← level]
    exact after

private theorem exists_tracked_concat (on : choice.on .signal) (counts : 1 ≤ choice.signalMovePct)
    {before : List Snapshot} (run : SignalRun hash signal (before ++ [snap])) :
    ∃ first baseline, Tracked amounts choice hash (signal first) (signal snap)
      (evaluateRun amounts choice (before ++ [snap])) baseline := by
  cases before with
  | nil =>
    obtain ⟨baseline, tracked⟩ := @exists_tracked amounts choice hash signal on counts snap [] run
    exact ⟨snap, baseline, tracked⟩
  | cons first rest =>
    obtain ⟨baseline, tracked⟩ :=
      @exists_tracked amounts choice hash signal on counts first (rest ++ [snap]) run
    have last : (first :: (rest ++ [snap])).getLast (List.cons_ne_nil _ _) = snap := by simp
    rw [last] at tracked
    exact ⟨first, baseline, tracked⟩

private theorem signalMoves_ne_nil_iff {alerts : List Alert} :
    alerts.filterMap (signalMoveOf hash) ≠ [] ↔
      ∃ a baseline, .signal a baseline ∈ alerts ∧ a.ipfsHash = hash := by
  rw [ne_eq, List.filterMap_eq_nil_iff, not_forall]
  constructor
  · rintro ⟨alert, told⟩
    rw [Classical.not_imp] at told
    obtain ⟨listed, some_move⟩ := told
    cases alert with
    | signal a baseline =>
      refine ⟨a, baseline, listed, ?_⟩
      by_contra other
      exact some_move (if_neg other)
    | _ => exact absurd rfl some_move
  · rintro ⟨a, baseline, listed, same⟩
    refine ⟨.signal a baseline, fun silent => ?_⟩
    have told : signalMoveOf hash (.signal a baseline) = some (baseline, a.signalGrt) := if_pos same
    rw [silent listed] at told
    cases told

/-- After the first look an event comes exactly with a drift from the stored baseline. -/
theorem Tracked.told_iff {first latest baseline : ℚ} {before : List Snapshot}
    (on : choice.on .signal) (counts : 1 ≤ choice.signalMovePct) (nonempty : before ≠ [])
    (tracked : Tracked amounts choice lead.ipfsHash first latest
      (evaluateRun amounts choice before) baseline)
    (leads : Leads snap.allocations lead) (nonneg : 0 ≤ lead.signalGrt) :
    (∃ a level, .signal a level ∈ (evaluateStored amounts (evaluateRun amounts choice before).2
        choice snap).1 ∧ a.ipfsHash = lead.ipfsHash) ↔
      Drifted choice.signalMovePct baseline lead.signalGrt := by
  classical
  have moves := (signal_step on counts (evaluateRun_ne_empty nonempty) leads tracked.stored
    tracked.settled.nonneg nonneg).1
  rw [← signalMoves_ne_nil_iff, moves]
  by_cases drifted : Drifted choice.signalMovePct baseline lead.signalGrt <;> simp [drifted]

/-- Slow drift of a deployment's signal always arrives: the stored baseline stays within the
percentage of the signal, an event comes exactly when the signal has left that range, and the
events chain. -/
theorem signal_drift_arrives (amounts : AmountText) (choice : AlertChoice) (hash : String)
    (signal : Snapshot → ℚ) (snaps : List Snapshot) (run : SignalRun hash signal snaps)
    (on : choice.on .signal) (counts : 1 ≤ choice.signalMovePct) :
    (∀ before snap after, snaps = before ++ snap :: after →
      ∃ baseline, storedBaseline amounts (evaluateRun amounts choice (before ++ [snap])).2 hash =
          some baseline ∧
        (baseline = 0 ∧ signal snap = 0 ∨
          0 < baseline ∧ |signal snap - baseline| < choice.signalMovePct / 100 * baseline)) ∧
    (∀ before snap after, snaps = before ++ snap :: after → before ≠ [] →
      ∃ baseline, storedBaseline amounts (evaluateRun amounts choice before).2 hash =
          some baseline ∧
        ((∃ a level, .signal a level ∈ (evaluateStored amounts
              (evaluateRun amounts choice before).2 choice snap).1 ∧ a.ipfsHash = hash) ↔
          baseline = 0 ∧ 0 < signal snap ∨ 0 < baseline ∧
            choice.signalMovePct / 100 * baseline ≤ |signal snap - baseline|)) ∧
    ∀ first rest, snaps = first :: rest →
      let moves := (evaluateRun amounts choice snaps).1.filterMap (signalMoveOf hash)
      moves.map Prod.fst = (signal first :: moves.map Prod.snd).dropLast := by
  refine ⟨?_, ?_, ?_⟩
  · rintro before snap after rfl
    rw [← List.singleton_append, ← List.append_assoc] at run
    obtain ⟨first, baseline, tracked⟩ := exists_tracked_concat on counts run.of_append
    exact ⟨baseline, tracked.stored, tracked.settled⟩
  · rintro before snap after rfl nonempty
    obtain ⟨lead, leads, rfl, level⟩ :=
      run.lead (List.mem_append_right before List.mem_cons_self)
    obtain ⟨first, rest, rfl⟩ := List.exists_cons_of_ne_nil nonempty
    obtain ⟨baseline, tracked⟩ := @exists_tracked amounts choice _ _ on counts _ _ run.of_append
    have nonneg : 0 ≤ lead.signalGrt :=
      level ▸ run.nonneg snap (List.mem_append_right _ List.mem_cons_self)
    refine ⟨baseline, tracked.stored, ?_⟩
    rw [← level]
    exact tracked.told_iff on counts nonempty leads nonneg
  · rintro first rest rfl
    obtain ⟨baseline, tracked⟩ := @exists_tracked amounts choice _ _ on counts _ _ run
    exact tracked.chained

/-- A deployment whose one allocation carries the signal. -/
def signalSnapshot (grt : ℚ) : Snapshot :=
  ⟨5, [⟨"0xa1", "Qm1", none, 3, grt, false⟩], none, none, none⟩

/-- Two rises of six percent make one event from the first level. -/
theorem two_rises_arrive :
    let choice : AlertChoice := ⟨["signal"], 10⟩
    let snaps := [signalSnapshot 100, signalSnapshot 106, signalSnapshot 112]
    let moves := (evaluateRun .fractions choice snaps).1.filterMap (signalMoveOf "Qm1")
    moves = [(100, 112)] ∧ moves.map Prod.fst = ((100 : ℚ) :: moves.map Prod.snd).dropLast := by
  intro choice snaps moves
  have run : SignalRun "Qm1" (fun snap => ((snap.allocations.head?).map AllocSnap.signalGrt).getD 0)
      snaps := by
    constructor
    · simp [snaps, signalSnapshot]
    · simp [snaps, signalSnapshot]
    · simp [snaps, signalSnapshot]
  refine ⟨by decide +kernel, ?_⟩
  exact (signal_drift_arrives .fractions choice "Qm1" _ snaps run (by decide) (by decide)).2.2
    (signalSnapshot 100) _ rfl

end SignalRuns

end Foghorn.Core
