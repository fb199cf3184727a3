import Mathlib.Data.List.Basic
import Mathlib.Data.Nat.Init
import Mathlib.Order.Nat
import Mathlib.Logic.Relation

/-!
# Chains that reorganise

The last blocks of a chain may give way to others, up to a depth, while the chain does not get
shorter. What is deeper than that is settled: it stays where it is through any number of such
steps. No block above it is.
-/

namespace Foghorn.Std

variable {Block : Type} {depth : Nat} {chain before after later : List Block}

/-- How many blocks of a chain no step takes away. The first is always one of them. -/
def settledLength (depth : Nat) (chain : List Block) : Nat := max 1 (chain.length - depth)

/-- At most the last `depth` blocks give way, to at least as many. -/
structure Reorg (depth : Nat) (before after : List Block) : Prop where
  kept : before.take (settledLength depth before) <+: after
  grows : before.length ≤ after.length

/-- Any number of steps. -/
def Reorgs (depth : Nat) : List Block → List Block → Prop := Relation.ReflTransGen (Reorg depth)

/-- A chain may stay as it is. -/
theorem Reorg.refl (chain : List Block) : Reorg depth chain chain := ⟨List.take_prefix _ _, le_rfl⟩

private theorem settledLength_mono (longer : before.length ≤ after.length) :
    settledLength depth before ≤ settledLength depth after := by
  unfold settledLength
  omega

/-- Steps keep the settled blocks. -/
theorem Reorgs.kept (run : Reorgs depth chain later) :
    chain.take (settledLength depth chain) <+: later ∧ chain.length ≤ later.length := by
  induction run with
  | refl => exact ⟨List.take_prefix _ _, le_rfl⟩
  | @tail middle later _ step ih =>
    obtain ⟨settled, longer⟩ := ih
    refine ⟨List.IsPrefix.trans ?_ step.kept, longer.trans step.grows⟩
    refine List.prefix_take_iff.mpr ⟨settled, ?_⟩
    exact (List.length_take_le _ _).trans (settledLength_mono longer)

/-- A settled block is where it was. -/
theorem Reorgs.getElem?_eq (run : Reorgs depth chain later) {number : Nat}
    (inside : number < chain.length) (settled : number < settledLength depth chain) :
    later[number]? = chain[number]? := by
  obtain ⟨rest, rfl⟩ := run.kept.1
  have short : number < (chain.take (settledLength depth chain)).length := by
    rw [List.length_take]
    exact lt_min settled inside
  rw [List.getElem?_append_left short, List.getElem?_take_of_lt settled]

/-- Any other block can give way at once. -/
theorem exists_reorg {number : Nat} (inside : number < chain.length)
    (unsettled : settledLength depth chain ≤ number) (block : Block) :
    Reorg depth chain (chain.set number block) where
  kept := by
    refine List.prefix_iff_eq_take.mpr ?_
    rw [List.length_take, List.take_set_of_le (by omega), min_eq_left (unsettled.trans inside.le)]
  grows := (List.length_set).ge

/-- A chain over time, from some blocks on. -/
structure ChainHistory (Block : Type) (depth : Nat) where
  at_ : Nat → List Block
  occupied : ∀ moment, at_ moment ≠ []
  step : ∀ moment, Reorg depth (at_ moment) (at_ (moment + 1))

namespace ChainHistory

/-- Between two moments of a history lie reorganisations of its depth. -/
theorem reorgs (history : ChainHistory Block depth) {moment later : Nat} (order : moment ≤ later) :
    Reorgs depth (history.at_ moment) (history.at_ later) := by
  induction later, order using Nat.le_induction with
  | base => exact .refl
  | succ later _ ih => exact ih.tail (history.step later)

/-- A chain that takes one step and stays. -/
def once (occupied : before ≠ []) (step : Reorg depth before after) : ChainHistory Block depth where
  at_ moment := if moment = 0 then before else after
  occupied moment := by
    split
    · exact occupied
    · have longer := step.grows
      have some_blocks := List.length_pos_iff.mpr occupied
      exact List.ne_nil_of_length_pos (by omega)
  step moment := by
    cases moment with
    | zero => exact step
    | succ moment => exact .refl after

/-- A block that was settled at a moment is on the chain ever after. -/
theorem getElem?_eq (history : ChainHistory Block depth) {moment later : Nat}
    (order : moment ≤ later)
    {number : Nat} (inside : number < (history.at_ moment).length)
    (settled : number < settledLength depth (history.at_ moment)) :
    (history.at_ later)[number]? = (history.at_ moment)[number]? :=
  (history.reorgs order).getElem?_eq inside settled

end ChainHistory

end Foghorn.Std
