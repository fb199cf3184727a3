import Mathlib.Data.List.Sort
import Mathlib.Data.Int.ConditionallyCompleteOrder

/-!
# Copying a log by a cursor

A log whose entries have a position is copied a page at a time: the entries after the
cursor, in order, up to a limit. The cursor is a position and not an entry, so what a page
leaves of its last position is behind the cursor of the next one. A page that ends between
two positions leaves nothing behind.
-/

namespace Foghorn.Std

variable {α ι : Type} [LinearOrder ι]

/-- The log after a cursor, in order. -/
def orderedAfter (rank : α → ι) (position : ι → Int) (log : List α) (cursor : Int) : List α :=
  (log.filter fun entry => cursor < position (rank entry)).mergeSort
    fun left right => rank left ≤ rank right

/-- The next page of at most `limit` entries. -/
def pageAfter (rank : α → ι) (position : ι → Int) (log : List α) (cursor : Int) (limit : Nat) :
    List α :=
  (orderedAfter rank position log cursor).take limit

variable {rank : α → ι} {position : ι → Int} {log : List α} {cursor : Int} {limit : Nat}

/-- The entries after a cursor are those whose position passes it. -/
theorem mem_orderedAfter {entry : α} :
    entry ∈ orderedAfter rank position log cursor ↔
      entry ∈ log ∧ cursor < position (rank entry) := by
  simp [orderedAfter]

private theorem orderedAfter_pairwise :
    (orderedAfter rank position log cursor).Pairwise fun left right => rank left ≤ rank right := by
  refine (List.pairwise_mergeSort ?_ ?_ _).imp fun holds => of_decide_eq_true holds
  · intro left middle right first second
    exact decide_eq_true ((of_decide_eq_true first).trans (of_decide_eq_true second))
  · intro left right
    rcases le_total (rank left) (rank right) with le | le
    · simp [le]
    · simp [le]

/-- A page holds entries of the log behind its cursor. -/
theorem mem_log_of_mem_pageAfter {entry : α}
    (member : entry ∈ pageAfter rank position log cursor limit) :
    entry ∈ log ∧ cursor < position (rank entry) :=
  mem_orderedAfter.mp (List.mem_of_mem_take member)

/-- The page ends where a position ends, or where `known` is not passed. -/
def EndsBetween (rank : α → ι) (position : ι → Int) (log : List α) (cursor : Int) (limit : Nat)
    (known : Int) : Prop :=
  ∀ last ∈ (pageAfter rank position log cursor limit).getLast?,
    ∀ next ∈ ((orderedAfter rank position log cursor).drop limit).head?,
      position (rank last) < position (rank next) ∨ position (rank last) ≤ known

/-- What a clean page leaves behind is after all of its entries. -/
theorem lt_of_mem_drop (monotone : ∀ ⦃a b⦄, a ≤ b → position a ≤ position b) {known : Int}
    (ends : EndsBetween rank position log cursor limit known) {left shown : α}
    (after : left ∈ (orderedAfter rank position log cursor).drop limit)
    (member : shown ∈ pageAfter rank position log cursor limit) :
    position (rank shown) < position (rank left) ∨ position (rank shown) ≤ known := by
  obtain ⟨next, rest, split⟩ := List.exists_cons_of_ne_nil (List.ne_nil_of_mem after)
  obtain ⟨earlier, last, whole⟩ := List.eq_nil_or_concat'
    (pageAfter rank position log cursor limit) |>.resolve_left (List.ne_nil_of_mem member)
  have ordered := @orderedAfter_pairwise _ _ _ rank position log cursor
  have nextLe : rank next ≤ rank left := by
    rw [split] at after
    rcases List.mem_cons.mp after with rfl | later
    · exact le_refl _
    · have tail := ordered.sublist (List.drop_sublist limit _)
      rw [split] at tail
      exact List.rel_of_pairwise_cons tail later
  have leLast : rank shown ≤ rank last := by
    rw [whole] at member
    rcases List.mem_append.mp member with before | here
    · have page := ordered.sublist (List.take_sublist limit _)
      rw [← pageAfter, whole] at page
      exact (List.pairwise_append.mp page).2.2 shown before last (List.mem_singleton_self last)
    · exact (List.mem_singleton.mp here ▸ le_refl _)
  rcases ends last (by rw [whole]; simp) next (by rw [split]; rfl) with apart | behind
  · exact .inl ((monotone leLast).trans_lt (apart.trans_le (monotone nextLe)))
  · exact .inr ((monotone leLast).trans behind)

/-- A page that ends between two positions takes with each of its entries all that are not
behind it and not known. -/
theorem mem_pageAfter_of_le (monotone : ∀ ⦃a b⦄, a ≤ b → position a ≤ position b) {known : Int}
    (ends : EndsBetween rank position log cursor limit known) {entry shown : α} (listed : entry ∈ log)
    (fresh : cursor < position (rank entry)) (unknown : known < position (rank entry))
    (member : shown ∈ pageAfter rank position log cursor limit)
    (le : position (rank entry) ≤ position (rank shown)) :
    entry ∈ pageAfter rank position log cursor limit := by
  have ordered := mem_orderedAfter.mpr ⟨listed, fresh⟩
  rw [← List.take_append_drop limit (orderedAfter rank position log cursor)] at ordered
  rcases List.mem_append.mp ordered with inPage | after
  · exact inPage
  · rcases lt_of_mem_drop monotone ends after member with apart | behind
    · exact absurd le (not_le.mpr apart)
    · exact absurd (le.trans behind) (not_le.mpr unknown)

end Foghorn.Std
