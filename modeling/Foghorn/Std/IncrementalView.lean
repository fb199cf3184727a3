import Mathlib.Data.Set.Basic

/-!
# Views kept by partial recomputation

A stored view follows a wanted one that changes under it. A step may queue the keys it
makes stale (`pending`), or merely touch them and rely on the next sweep, which recomputes
every key of a set. Sweeps shrink over time. `stale_subset` says where a run that starts
fresh can be stale: at pending keys, and at keys touched since the last sweep. When
nothing is pending and nothing was touched since a sweep, the view is the wanted one.
-/

namespace Foghorn.Std

variable {Key Value : Type*}

/-- The keys under which a stored view is not the wanted one. -/
def Stale (stored wanted : Key → Value) : Set Key := {key | stored key ≠ wanted key}

/-- A run of a view and what it should hold, with what each step queues, touches and sweeps. -/
structure Maintenance (Key Value : Type*) where
  stored : ℕ → Key → Value
  wanted : ℕ → Key → Value
  pending : ℕ → Set Key
  touched : ℕ → Set Key
  swept : ℕ → Option (Set Key)
  /-- A key that a step leaves stale is pending, or touched, or was stale before, in which
  case no request that was pending can have gone and no sweep has reached it. -/
  accounts : ∀ step key, key ∈ Stale (stored (step + 1)) (wanted (step + 1)) →
    key ∈ pending (step + 1) ∨ key ∈ touched step ∨
      key ∈ Stale (stored step) (wanted step) ∧ key ∉ pending step ∧
        ∀ keys ∈ swept step, key ∉ keys
  /-- A later sweep reaches no further than an earlier one. -/
  shrinks : ∀ {early late earlier later}, early ≤ late → swept early = some earlier →
    swept late = some later → later ⊆ earlier
  /-- A step that sweeps touches nothing. -/
  apart : ∀ {step keys}, swept step = some keys → touched step = ∅

namespace Maintenance

variable (run : Maintenance Key Value)

def stale (step : ℕ) : Set Key := Stale (run.stored step) (run.wanted step)

/-- Touched by a step with no sweep since. -/
def Unswept (step : ℕ) : Set Key :=
  {key | ∃ touch < step, key ∈ run.touched touch ∧
    ∀ between, touch < between → between < step → run.swept between = none}

/-- Every touched key is in time for a later sweep. -/
def Prompt : Prop :=
  ∀ touch, ∀ key ∈ run.touched touch, ∃ sweep, touch < sweep ∧ ∃ keys, run.swept sweep = some keys ∧ key ∈ keys

variable {run}

/-- A key still waiting for its first sweep is in whatever that sweep recomputes. -/
theorem Prompt.mem_of_unswept (prompt : run.Prompt) {step : ℕ} {key : Key} {keys : Set Key}
    (waiting : key ∈ run.Unswept step) (sweeps : run.swept step = some keys) : key ∈ keys := by
  obtain ⟨touch, before, touched, none_⟩ := waiting
  obtain ⟨sweep, after, later, laterSweeps, reached⟩ := prompt touch key touched
  have notBefore : step ≤ sweep := by
    by_contra earlier
    have := none_ sweep after (by omega)
    rw [laterSweeps] at this
    cases this
  exact run.shrinks notBefore sweeps laterSweeps reached

private theorem unswept_succ {step : ℕ} {key : Key} (waiting : key ∈ run.Unswept step)
    (still : run.swept step = none) : key ∈ run.Unswept (step + 1) := by
  obtain ⟨touch, before, touched, none_⟩ := waiting
  refine ⟨touch, by omega, touched, ?_⟩
  intro between after upTo
  rcases Nat.lt_succ_iff_lt_or_eq.mp upTo with inside | rfl
  · exact none_ between after inside
  · exact still

private theorem unswept_of_touched {step : ℕ} {key : Key} (touched : key ∈ run.touched step) :
    key ∈ run.Unswept (step + 1) :=
  ⟨step, by omega, touched, by omega⟩

/-- Whatever is stale is queued, or was touched since the last sweep. -/
theorem stale_subset (prompt : run.Prompt) (fresh : run.stale 0 = ∅) (step : ℕ) :
    run.stale step ⊆ run.pending step ∪ run.Unswept step := by
  induction step with
  | zero => simp [fresh]
  | succ step ih =>
    intro key stale
    rcases run.accounts step key stale with queued | touched | ⟨before, unqueued, unreached⟩
    · exact Or.inl queued
    · exact Or.inr (unswept_of_touched touched)
    · have waiting := (ih before).resolve_left unqueued
      cases sweeps : run.swept step with
      | none => exact Or.inr (unswept_succ waiting sweeps)
      | some keys => exact absurd (prompt.mem_of_unswept waiting sweeps) (unreached keys sweeps)

/-- With nothing queued and nothing touched since a sweep, the view is the wanted one. -/
theorem stored_eq_wanted (prompt : run.Prompt) (fresh : run.stale 0 = ∅) {sweep step : ℕ}
    (before : sweep < step) {keys : Set Key} (sweeps : run.swept sweep = some keys)
    (quiet : ∀ between, sweep < between → between < step → run.touched between = ∅)
    (drained : run.pending step = ∅) : run.stored step = run.wanted step := by
  funext key
  by_contra stale
  rcases stale_subset prompt fresh step stale with queued | ⟨touch, earlier, touched, none_⟩
  · rw [drained] at queued
    exact queued
  · rcases Nat.lt_trichotomy touch sweep with old | rfl | recent
    · have := none_ sweep old before
      rw [sweeps] at this
      cases this
    · rw [run.apart sweeps] at touched
      exact touched
    · rw [quiet touch recent earlier] at touched
      exact touched

end Maintenance

end Foghorn.Std
