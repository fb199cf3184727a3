import Mathlib.Data.List.Basic

/-!
# Statements without a transaction

A program that commits each statement as it goes is a list of statements. Failing at
one of them leaves the state that the statements before it made: `runAll` of a prefix.
The rules carry an invariant, or a part of the state that nothing touches, through any such
run; `Throughout` is what holds at each of its steps.
-/

namespace Foghorn.Std

variable {σ α ρ : Type} {exec : σ → α → α}

/-- Execute statements one after the other. -/
def runAll (exec : σ → α → α) : List σ → α → α
  | [], state => state
  | statement :: rest, state => runAll exec rest (exec statement state)

@[simp] theorem runAll_nil (state : α) : runAll exec [] state = state := rfl

@[simp] theorem runAll_cons (statement : σ) (rest : List σ) (state : α) :
    runAll exec (statement :: rest) state = runAll exec rest (exec statement state) := rfl

/-- Two programs in a row run as one. -/
theorem runAll_append (first second : List σ) (state : α) :
    runAll exec (first ++ second) state = runAll exec second (runAll exec first state) := by
  induction first generalizing state with
  | nil => rfl
  | cons statement rest ih => simp [ih]

/-- The last statement acts on what the program before it left. -/
theorem runAll_concat (program : List σ) (last : σ) (state : α) :
    runAll exec (program ++ [last]) state = exec last (runAll exec program state) := by
  simp [runAll_append]

/-- What every statement keeps, the run keeps. -/
theorem runAll_preserves (inv : α → Prop) {program : List σ} {state : α} (start : inv state)
    (kept : ∀ statement ∈ program, ∀ state, inv state → inv (exec statement state)) :
    inv (runAll exec program state) := by
  induction program generalizing state with
  | nil => exact start
  | cons statement rest ih =>
    exact ih (kept statement List.mem_cons_self state start)
      (fun other member => kept other (List.mem_cons_of_mem _ member))

/-- What no statement writes reads the same after the run. -/
theorem runAll_frame (read : α → ρ) {program : List σ} {state : α}
    (untouched : ∀ statement ∈ program, ∀ state, read (exec statement state) = read state) :
    read (runAll exec program state) = read state := by
  apply runAll_preserves (fun reached => read reached = read state) rfl
  intro statement member reached same
  rw [untouched statement member reached, same]

/-- A part of the state that each statement either acts on or leaves alone sees a run of the
actions. -/
theorem runAll_project {τ : Type} {act : τ → ρ → ρ} (read : α → ρ) (part : σ → Option τ)
    {program : List σ} {state : α}
    (projects : ∀ statement ∈ program, ∀ state, read (exec statement state) =
      (part statement).elim (read state) fun action => act action (read state)) :
    read (runAll exec program state) = runAll act (program.filterMap part) (read state) := by
  induction program generalizing state with
  | nil => rfl
  | cons statement rest ih =>
    have later := fun other member => projects other (List.mem_cons_of_mem _ member)
    rw [runAll_cons, ih later, projects statement List.mem_cons_self]
    cases acts : part statement with
    | none => rw [List.filterMap_cons_none acts, Option.elim_none]
    | some action => rw [List.filterMap_cons_some acts, Option.elim_some, runAll_cons]

/-- Every statement of the run meets a condition in the state it is executed in. -/
def Throughout (exec : σ → α → α) (meets : σ → α → Prop) : List σ → α → Prop
  | [], _ => True
  | statement :: rest, state =>
    meets statement state ∧ Throughout exec meets rest (exec statement state)

/-- A condition of each step that keeps an invariant, and yields a property of the step under
it, yields the property of every step of a run. -/
theorem Throughout.imp {allowed goal : σ → α → Prop} (inv : α → Prop) {program : List σ} {state : α}
    (kept : ∀ statement ∈ program, ∀ state, inv state → allowed statement state →
      inv (exec statement state))
    (yields : ∀ statement ∈ program, ∀ state, inv state → allowed statement state →
      goal statement state)
    (start : inv state) (run : Throughout exec allowed program state) :
    Throughout exec goal program state := by
  induction program generalizing state with
  | nil => trivial
  | cons statement rest ih =>
    refine ⟨yields statement List.mem_cons_self state start run.1, ?_⟩
    exact ih (fun other member => kept other (List.mem_cons_of_mem _ member))
      (fun other member => yields other (List.mem_cons_of_mem _ member))
      (kept statement List.mem_cons_self state start run.1) run.2

/-- What holds throughout a program holds throughout both parts of it. -/
theorem Throughout.of_append {meets : σ → α → Prop} {first second : List σ} {state : α}
    (run : Throughout exec meets (first ++ second) state) :
    Throughout exec meets first state ∧
      Throughout exec meets second (runAll exec first state) := by
  induction first generalizing state with
  | nil => exact ⟨trivial, run⟩
  | cons statement rest ih =>
    obtain ⟨left, right⟩ := ih run.2
    exact ⟨⟨run.1, left⟩, right⟩

/-- An order that no step leaves upwards bounds the end of a run by its start. -/
theorem Throughout.bound {ρ : Type} (le : ρ → ρ → Prop) (refl : ∀ value, le value value)
    (trans : ∀ {a b c}, le a b → le b c → le a c) (read : α → ρ) {program : List σ} {state : α}
    (run : Throughout exec (fun statement state => le (read (exec statement state)) (read state))
      program state) : le (read (runAll exec program state)) (read state) := by
  induction program generalizing state with
  | nil => exact refl _
  | cons statement rest ih => exact trans (ih run.2) run.1

/-- A run that stops inside a program whose last statement it never reached, or that
executed all of it. -/
theorem take_concat_cases (program : List σ) (last : σ) (executed : Nat) :
    (program ++ [last]).take executed = program.take executed ∨
      (program ++ [last]).take executed = program ++ [last] := by
  by_cases inside : executed ≤ program.length
  · exact Or.inl (List.take_append_of_le_length inside)
  · refine Or.inr (List.take_of_length_le ?_)
    rw [List.length_append, List.length_singleton]
    omega

end Foghorn.Std
