import Mathlib.Data.List.Pairwise
import Mathlib.Order.Lattice

/-!
# Reading by key while the rows change

A reader asks for page after page in key order, each after the last key that it was shown. A page
is taken from the rows as they are when it is asked for, and nothing is known of how they change
in between.
-/

namespace Foghorn.Std

variable {Row Key : Type} [LinearOrder Key]

/-- The rows that come after a key. -/
def rowsAfter (key : Row → Key) (last : Option Key) (rows : List Row) : List Row :=
  rows.filter fun row => last.all fun last => last < key row

/-- The first rows after a key, in some arrangement in key order. -/
structure IsPage (key : Row → Key) (size : Nat) (last : Option Key) (rows page : List Row) :
    Prop where
  cut : ∃ sorted : List Row, sorted.Perm (rowsAfter key last rows) ∧
    sorted.Pairwise (fun a b => key a ≤ key b) ∧ page = sorted.take size

/-- The key that the reader goes on after, once it was shown the pages before `query`. -/
def lastShown (key : Row → Key) (page : Nat → Option Key → List Row) (start : Option Key) :
    Nat → Option Key
  | 0 => start
  | query + 1 =>
    ((page query (lastShown key page start query)).getLast?.map key).or
      (lastShown key page start query)

/-- The page that the reader is shown. -/
def livePage (key : Row → Key) (page : Nat → Option Key → List Row) (start : Option Key)
    (query : Nat) : List Row :=
  page query (lastShown key page start query)

/-- What it was shown by the pages before `query`. -/
def liveRows (key : Row → Key) (page : Nat → Option Key → List Row) (start : Option Key)
    (query : Nat) : List Row :=
  (List.range query).flatMap (livePage key page start)

variable {key : Row → Key} {size : Nat} {last start : Option Key} {rows shown : List Row}
  {listing : Nat → List Row} {page : Nat → Option Key → List Row} {wanted : Key} {query : Nat}

omit [LinearOrder Key] in
private theorem lastShown_succ : lastShown key page start (query + 1) =
    ((livePage key page start query).getLast?.map key).or (lastShown key page start query) := rfl

namespace IsPage

/-- A page shows rows behind the last id. -/
theorem mem_of_mem (cut : IsPage key size last rows shown) {row : Row} (member : row ∈ shown) :
    row ∈ rows ∧ last.all fun last => last < key row := by
  obtain ⟨sorted, perm, -, rfl⟩ := cut
  exact List.mem_filter.mp (perm.mem_iff.mp (List.mem_of_mem_take member))

/-- A page shows no more rows than there are. -/
theorem length_le (cut : IsPage key size last rows shown) : shown.length ≤ rows.length := by
  obtain ⟨sorted, perm, -, rfl⟩ := cut
  have bound : sorted.length ≤ rows.length := perm.length_eq ▸ List.length_filter_le _ _
  exact Nat.le_trans (List.take_sublist _ _).length_le bound

/-- A page ascends in its key. -/
theorem ascending (cut : IsPage key size last rows shown) :
    shown.Pairwise fun a b => key a ≤ key b := by
  obtain ⟨sorted, -, ascends, rfl⟩ := cut
  exact ascends.sublist (List.take_sublist _ _)

/-- Without two rows of one key no two rows of a page have one. -/
theorem strictlyAscending (cut : IsPage key size last rows shown)
    (distinct : (rows.map key).Nodup) : shown.Pairwise fun a b => key a < key b := by
  have ascends := cut.ascending
  obtain ⟨sorted, perm, -, rfl⟩ := cut
  have apart : ((rowsAfter key last rows).map key).Nodup :=
    distinct.sublist (List.filter_sublist.map key)
  have kept : ((sorted.take size).map key).Nodup :=
    ((perm.map key).nodup_iff.mpr apart).sublist ((List.take_sublist _ _).map key)
  exact (ascends.and (List.pairwise_map.mp kept)).imp fun both => lt_of_le_of_ne both.1 both.2

/-- The last row of a page has the greatest key. -/
theorem key_le_last (cut : IsPage key size last rows shown) {final : Row}
    (ends : shown.getLast? = some final) {row : Row} (member : row ∈ shown) :
    key row ≤ key final := by
  obtain ⟨earlier, rfl⟩ := List.getLast?_eq_some_iff.mp ends
  rcases List.mem_append.mp member with before | here
  · exact (List.pairwise_append.mp cut.ascending).2.2 row before final (List.mem_singleton_self _)
  · rw [List.mem_singleton.mp here]

/-- A row after the key is shown, or the page is full and ends at the row's key or before it. -/
theorem shows_or_full (cut : IsPage key size last rows shown) {row : Row} (present : row ∈ rows)
    (after : last.all fun last => last < key row) :
    row ∈ shown ∨ shown.length = size ∧ ∀ other ∈ shown, key other ≤ key row := by
  obtain ⟨sorted, perm, ascends, rfl⟩ := cut
  have listed : row ∈ sorted := perm.mem_iff.mpr (List.mem_filter.mpr ⟨present, after⟩)
  rw [← List.take_append_drop size sorted, List.mem_append] at listed
  rcases listed with taken | later
  · exact .inl taken
  · have long : size < sorted.length := by
      by_contra short
      rw [List.drop_of_length_le (Nat.le_of_not_lt short)] at later
      cases later
    rw [← List.take_append_drop size sorted] at ascends
    exact .inr ⟨List.length_take_of_le (Nat.le_of_lt long), fun other shown =>
      (List.pairwise_append.mp ascends).2.2 other shown row later⟩

end IsPage

section Reader

variable (pages : ∀ query last, IsPage key size last (listing query) (page query last))
include pages

/-- The rows of a page are after what was shown before it, and not after what was shown with it. -/
theorem between_of_mem_livePage {row : Row} (member : row ∈ livePage key page start query) :
    ((lastShown key page start query).all fun last => last < key row) ∧
      ∃ last ∈ lastShown key page start (query + 1), key row ≤ last := by
  refine ⟨((pages query _).mem_of_mem member).2, ?_⟩
  cases ends : (livePage key page start query).getLast? with
  | none =>
    rw [List.getLast?_eq_none_iff.mp ends] at member
    cases member
  | some final =>
    refine ⟨key final, ?_, (pages query _).key_le_last ends member⟩
    rw [lastShown_succ, ends]
    rfl

/-- The key to go on after only grows. -/
theorem lastShown_mono {last : Key} (reached : last ∈ lastShown key page start query) :
    ∃ later ∈ lastShown key page start (query + 1), last ≤ later := by
  cases ends : (livePage key page start query).getLast? with
  | none =>
    refine ⟨last, ?_, le_rfl⟩
    rw [lastShown_succ, ends]
    exact reached
  | some final =>
    have after := (between_of_mem_livePage pages (List.mem_of_getLast? ends)).1
    rw [reached] at after
    refine ⟨key final, ?_, (of_decide_eq_true after).le⟩
    rw [lastShown_succ, ends]
    rfl

private theorem key_le_lastShown {row : Row} (member : row ∈ liveRows key page start query) :
    ∃ last ∈ lastShown key page start query, key row ≤ last := by
  induction query with
  | zero => cases member
  | succ query ih =>
    rw [liveRows, List.range_succ, List.flatMap_append, List.mem_append] at member
    rcases member with before | here
    · obtain ⟨last, reached, bound⟩ := ih before
      obtain ⟨later, next, mono⟩ := lastShown_mono pages reached
      exact ⟨later, next, bound.trans mono⟩
    · rw [List.flatMap_singleton] at here
      exact (between_of_mem_livePage pages here).2

/-- However the rows change, none is shown a second time, and the keys only grow. -/
theorem liveRows_strictlyAscending (distinct : ∀ query, ((listing query).map key).Nodup)
    (start : Option Key) (query : Nat) :
    (liveRows key page start query).Pairwise fun a b => key a < key b := by
  induction query with
  | zero => exact List.Pairwise.nil
  | succ query ih =>
    rw [liveRows, List.range_succ, List.flatMap_append, List.flatMap_singleton]
    refine List.pairwise_append.mpr
      ⟨ih, (pages query _).strictlyAscending (distinct query), fun earlier before row here => ?_⟩
    obtain ⟨last, reached, bound⟩ := key_le_lastShown pages before
    have after := (between_of_mem_livePage pages here).1
    rw [reached] at after
    exact bound.trans_lt (of_decide_eq_true after)

/-- A key that is there all the time was shown, or is still to come. -/
theorem shown_or_ahead (after : start.all fun last => last < wanted)
    (present : ∀ earlier < query, ∃ row ∈ listing earlier, key row = wanted) :
    (∃ row ∈ liveRows key page start query, key row = wanted) ∨
      (lastShown key page start query).all fun last => last < wanted := by
  induction query with
  | zero => exact .inr after
  | succ query ih =>
    rw [liveRows, List.range_succ, List.flatMap_append, List.flatMap_singleton]
    rcases ih fun earlier before => present earlier (Nat.lt_succ_of_lt before) with
      ⟨row, shown, same⟩ | ahead
    · exact .inl ⟨row, List.mem_append_left _ shown, same⟩
    · obtain ⟨row, listed, rfl⟩ := present query (Nat.lt_succ_self _)
      rcases (pages query _).shows_or_full listed ahead with shown | ⟨-, below⟩
      · exact .inl ⟨row, List.mem_append_right _ shown, rfl⟩
      · cases ends : (livePage key page start query).getLast? with
        | none =>
          right
          rw [lastShown_succ, ends]
          exact ahead
        | some final =>
          have member := List.mem_of_getLast? ends
          rcases (below final member).lt_or_eq with less | same
          · right
            rw [lastShown_succ, ends]
            exact decide_eq_true less
          · exact .inl ⟨final, List.mem_append_right _ member, same⟩

/-- Once a page is short, every key that was there all the time was shown. -/
theorem shown_of_short (after : start.all fun last => last < wanted)
    (present : ∀ earlier ≤ query, ∃ row ∈ listing earlier, key row = wanted)
    (short : (livePage key page start query).length < size) :
    ∃ row ∈ liveRows key page start (query + 1), key row = wanted := by
  rw [liveRows, List.range_succ, List.flatMap_append, List.flatMap_singleton]
  rcases shown_or_ahead pages after fun earlier before => present earlier (Nat.le_of_lt before) with
    ⟨row, shown, same⟩ | ahead
  · exact ⟨row, List.mem_append_left _ shown, same⟩
  · obtain ⟨row, listed, rfl⟩ := present query (Nat.le_refl _)
    rcases (pages query _).shows_or_full listed ahead with shown | ⟨full, -⟩
    · exact ⟨row, List.mem_append_right _ shown, rfl⟩
    · exact absurd full (Nat.ne_of_lt short)

end Reader

end Foghorn.Std
