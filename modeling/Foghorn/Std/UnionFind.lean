import Mathlib.Data.Fintype.Card
import Mathlib.Data.List.Induction
import Mathlib.Logic.Function.Basic
import Mathlib.Logic.Relation

/-!
# Union-find

What a forest of parents stands for is the function that gives each point the representative
of its class. Finding a representative shortens paths without changing the function, and a
union merges two classes of it. The classes left by some unions are what their pairs connect.
-/

namespace Foghorn.Std

variable {ι : Type}

section Classes

variable [DecidableEq ι]

/-- Put the class of one point under the representative of another. -/
def merge (rep : ι → ι) (a b : ι) : ι → ι := fun x => if rep x = rep a then rep b else rep x

def mergeAll (pairs : List (ι × ι)) : ι → ι :=
  pairs.foldl (fun rep pair => merge rep pair.1 pair.2) id

private theorem mergeAll_concat (pairs : List (ι × ι)) (pair : ι × ι) :
    mergeAll (pairs ++ [pair]) = merge (mergeAll pairs) pair.1 pair.2 := by
  rw [mergeAll, List.foldl_append]
  rfl

/-- After a merge two points are together if they were, or if each was with one of the two merged.
-/
theorem merge_eq_iff {rep : ι → ι} {a b x y : ι} :
    merge rep a b x = merge rep a b y ↔
      rep x = rep y ∨ (rep x = rep a ∧ rep y = rep b) ∨ (rep x = rep b ∧ rep y = rep a) := by
  unfold merge
  by_cases left : rep x = rep a <;> by_cases right : rep y = rep a <;> simp [left, right]
  exact ⟨fun same => .inr same.symm, by grind⟩

/-- Two points are in one class exactly when the merged pairs connect them. -/
theorem mergeAll_eq_iff {pairs : List (ι × ι)} {x y : ι} :
    mergeAll pairs x = mergeAll pairs y ↔ Relation.EqvGen (fun a b => (a, b) ∈ pairs) x y := by
  induction pairs using List.reverseRecOn generalizing x y with
  | nil =>
    constructor
    · rintro (rfl : x = y)
      exact .refl x
    · intro connected
      induction connected with
      | rel _ _ listed => cases listed
      | refl => rfl
      | symm _ _ _ ih => exact ih.symm
      | trans _ _ _ _ _ first second => exact first.trans second
  | append_singleton pairs pair ih =>
    have earlier {a b : ι} (connected : Relation.EqvGen (fun a b => (a, b) ∈ pairs) a b) :
        Relation.EqvGen (fun a b => (a, b) ∈ pairs ++ [pair]) a b :=
      connected.mono fun _ _ => List.mem_append_left _
    have last : Relation.EqvGen (fun a b => (a, b) ∈ pairs ++ [pair]) pair.1 pair.2 :=
      .rel _ _ (List.mem_append_right _ List.mem_cons_self)
    rw [mergeAll_concat]
    constructor
    · rw [merge_eq_iff, ih, ih, ih, ih, ih]
      rintro (same | ⟨left, right⟩ | ⟨left, right⟩)
      · exact earlier same
      · exact (earlier left).trans _ _ _ (last.trans _ _ _ ((earlier right).symm _ _))
      · exact (earlier left).trans _ _ _ ((last.symm _ _).trans _ _ _ ((earlier right).symm _ _))
    · intro connected
      induction connected with
      | rel a b listed =>
        rw [merge_eq_iff]
        rcases List.mem_append.mp listed with listed | listed
        · exact .inl (ih.mpr (.rel _ _ listed))
        · obtain rfl := List.mem_singleton.mp listed
          exact .inr (.inl ⟨rfl, rfl⟩)
      | refl => rfl
      | symm _ _ _ ih => exact ih.symm
      | trans _ _ _ _ _ first second => exact first.trans second

end Classes

section Forest

/-- The parents lead every point to its representative, down a rank. -/
structure Forest (rank : ι → Nat) (parent rep : ι → ι) : Prop where
  rep_parent : ∀ x, rep (parent x) = rep x
  rep_root : ∀ x, parent x = x → rep x = x
  descends : ∀ x, parent x ≠ x → rank (parent x) < rank x

variable {rank : ι → Nat} {parent rep : ι → ι}

/-- Every point is its own root to begin with. -/
theorem Forest.id : Forest (fun _ : ι => 0) id id where
  rep_parent _ := rfl
  rep_root _ _ := rfl
  descends _ moved := absurd rfl moved

private theorem Forest.parent_rep (forest : Forest rank parent rep) (x : ι) :
    parent (rep x) = rep x := by
  by_cases root : parent x = x
  · rw [forest.rep_root x root, root]
  · have lower := forest.descends x root
    rw [← forest.rep_parent x]
    exact forest.parent_rep (parent x)
termination_by rank x

private theorem Forest.rep_rep (forest : Forest rank parent rep) (x : ι) : rep (rep x) = rep x :=
  forest.rep_root _ (forest.parent_rep x)

/-- On a finite forest a rank need not exceed the number of points. -/
theorem Forest.exists_rank_lt [Fintype ι] (forest : Forest rank parent rep) :
    ∃ low : ι → Nat, Forest low parent rep ∧ ∀ x, low x < Fintype.card ι := by
  refine ⟨fun x => (Finset.univ.filter fun y => rank y < rank x).card,
    ⟨forest.rep_parent, forest.rep_root, fun x moved => ?_⟩, fun x => ?_⟩
  · have lower := forest.descends x moved
    refine Finset.card_lt_card ((Finset.ssubset_iff_of_subset fun y below => ?_).mpr
      ⟨parent x, by simp [lower], by simp⟩)
    simp only [Finset.mem_filter, Finset.mem_univ, true_and] at below ⊢
    exact below.trans lower
  · exact Finset.card_lt_card
      ((Finset.ssubset_iff_of_subset (Finset.subset_univ _)).mpr ⟨x, by simp, by simp⟩)

end Forest

section Operations

variable [DecidableEq ι] {rank : ι → Nat} {parent rep : ι → ι}

/-- Walk up to the root, pointing every visited point at its grandparent. -/
def find : Nat → (ι → ι) → ι → Option ((ι → ι) × ι)
  | 0, _, _ => none
  | fuel + 1, parent, x =>
    if parent x = x then some (parent, x)
    else
      let halved := Function.update parent x (parent (parent x))
      find fuel halved (halved x)

private theorem Forest.rank_grandparent_lt (forest : Forest rank parent rep) {x : ι}
    (moved : parent x ≠ x) : rank (parent (parent x)) < rank x := by
  have lower := forest.descends x moved
  by_cases root : parent (parent x) = parent x
  · rwa [root]
  · exact (forest.descends _ root).trans lower

/-- Pointing at the grandparent changes no representative. -/
theorem Forest.halve (forest : Forest rank parent rep) {x : ι} (moved : parent x ≠ x) :
    Forest rank (Function.update parent x (parent (parent x))) rep where
  rep_parent y := by
    by_cases same : y = x
    · rw [same, Function.update_self, forest.rep_parent, forest.rep_parent]
    · rw [Function.update_of_ne same, forest.rep_parent]
  rep_root y root := by
    by_cases same : y = x
    · rw [same, Function.update_self] at root
      exact absurd (forest.rank_grandparent_lt moved) (by rw [root]; exact lt_irrefl _)
    · rw [Function.update_of_ne same] at root
      exact forest.rep_root y root
  descends y y_moved := by
    by_cases same : y = x
    · rw [same, Function.update_self]
      exact forest.rank_grandparent_lt moved
    · rw [Function.update_of_ne same] at y_moved ⊢
      exact forest.descends y y_moved

/-- With more fuel than the rank of a point, its representative is found and all are kept. -/
theorem Forest.find_eq {fuel : Nat} (forest : Forest rank parent rep) {x : ι}
    (enough : rank x < fuel) :
    ∃ shorter, find fuel parent x = some (shorter, rep x) ∧ Forest rank shorter rep := by
  induction fuel generalizing parent x with
  | zero => exact absurd enough (Nat.not_lt_zero _)
  | succ fuel ih =>
    rw [find]
    by_cases root : parent x = x
    · exact ⟨parent, by rw [if_pos root, forest.rep_root x root], forest⟩
    · have halved := forest.halve root
      have lower : rank (parent (parent x)) < fuel :=
        (forest.rank_grandparent_lt root).trans_le (Nat.lt_succ_iff.mp enough)
      obtain ⟨shorter, found, kept⟩ := ih halved lower
      refine ⟨shorter, ?_, kept⟩
      simp only [if_neg root, Function.update_self]
      rw [found, forest.rep_parent, forest.rep_parent]

/-- Link the roots of two points. -/
def union (fuel : Nat) (parent : ι → ι) (a b : ι) : Option (ι → ι) := do
  let (parent, ra) ← find fuel parent a
  let (parent, rb) ← find fuel parent b
  some (if ra = rb then parent else Function.update parent ra rb)

/-- Linking two roots merges their classes. -/
theorem Forest.link (forest : Forest rank parent rep) {a b : ι} (apart : rep a ≠ rep b) :
    Forest (fun x => rank x + if rep x = rep a then rank (rep b) + 1 else 0)
      (Function.update parent (rep a) (rep b)) (merge rep a b) where
  rep_parent x := by
    by_cases same : x = rep a
    · rw [same, Function.update_self, merge, merge, forest.rep_rep, forest.rep_rep, if_pos rfl]
      exact if_neg apart.symm
    · rw [Function.update_of_ne same, merge, merge, forest.rep_parent]
  rep_root x root := by
    by_cases same : x = rep a
    · rw [same, Function.update_self] at root
      exact absurd root.symm apart
    · rw [Function.update_of_ne same] at root
      have fixed := forest.rep_root x root
      rw [merge, fixed, if_neg same]
  descends x moved := by
    by_cases same : x = rep a
    · rw [same, Function.update_self, forest.rep_rep, forest.rep_rep, if_neg apart.symm, if_pos rfl]
      omega
    · rw [Function.update_of_ne same] at moved ⊢
      rw [forest.rep_parent]
      exact Nat.add_lt_add_right (forest.descends x moved) _

/-- A union ends, and leaves a forest of the merged classes. -/
theorem Forest.union_eq [Fintype ι] (forest : Forest rank parent rep) (a b : ι) :
    ∃ rank parent', union (Fintype.card ι) parent a b = some parent' ∧
      Forest rank parent' (merge rep a b) := by
  obtain ⟨low, forest, bound⟩ := forest.exists_rank_lt
  obtain ⟨first, found_a, forest⟩ := forest.find_eq (bound a)
  obtain ⟨second, found_b, forest⟩ := forest.find_eq (bound b)
  have united : union (Fintype.card ι) parent a b =
      some (if rep a = rep b then second else Function.update second (rep a) (rep b)) := by
    rw [union, found_a]
    simp only [Option.bind_eq_bind, Option.bind_some, found_b]
  by_cases same : rep a = rep b
  · have unchanged : merge rep a b = rep := by
      funext x
      by_cases there : rep x = rep a
      · rw [merge, if_pos there, ← same, there]
      · rw [merge, if_neg there]
    rw [united, if_pos same, unchanged]
    exact ⟨low, second, rfl, forest⟩
  · rw [united, if_neg same]
    exact ⟨_, _, rfl, forest.link same⟩

def unionAll (fuel : Nat) (pairs : List (ι × ι)) : Option (ι → ι) :=
  pairs.foldlM (fun parent pair => union fuel parent pair.1 pair.2) id

/-- On a finite type no union runs out of fuel, and the classes left are those of the pairs. -/
theorem exists_unionAll [Fintype ι] (pairs : List (ι × ι)) :
    ∃ rank parent, unionAll (Fintype.card ι) pairs = some parent ∧
      Forest rank parent (mergeAll pairs) := by
  induction pairs using List.reverseRecOn with
  | nil => exact ⟨_, id, rfl, Forest.id⟩
  | append_singleton pairs pair ih =>
    obtain ⟨rank, parent, united, forest⟩ := ih
    obtain ⟨rank, next, last, forest⟩ := forest.union_eq pair.1 pair.2
    refine ⟨rank, next, ?_, mergeAll_concat pairs pair ▸ forest⟩
    rw [unionAll, List.foldlM_append, ← unionAll, united]
    simpa using last

/-- Find each of some points in turn. -/
def findAll (fuel : Nat) : (ι → ι) → List ι → Option (List (ι × ι))
  | _, [] => some []
  | parent, x :: rest => do
    let (parent, root) ← find fuel parent x
    let later ← findAll fuel parent rest
    some ((root, x) :: later)

private theorem Forest.findAll_of_rank {fuel : Nat} (forest : Forest rank parent rep)
    (bound : ∀ x, rank x < fuel) (points : List ι) :
    findAll fuel parent points = some (points.map fun x => (rep x, x)) := by
  induction points generalizing parent with
  | nil => rfl
  | cons x rest ih =>
    obtain ⟨shorter, found, kept⟩ := forest.find_eq (bound x)
    rw [findAll, found]
    simp only [Option.bind_eq_bind, Option.bind_some, ih kept, List.map_cons]

/-- With as much fuel as points every root is found. -/
theorem Forest.findAll_eq [Fintype ι] (forest : Forest rank parent rep) (points : List ι) :
    findAll (Fintype.card ι) parent points = some (points.map fun x => (rep x, x)) := by
  obtain ⟨low, forest, bound⟩ := forest.exists_rank_lt
  exact forest.findAll_of_rank bound points

end Operations

end Foghorn.Std
