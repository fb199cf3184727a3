import Mathlib.Order.Basic
import Mathlib.Data.List.Basic
import Mathlib.Data.List.Pairwise
import Mathlib.Tactic.Ring

/-!
# Reading a listing page by page

A listing in key order is read by asking for the rows after the last key seen, up to a number
of pages. A page may not be answered as asked: the reader then fails, or it takes the answer
for the end of the listing. What it has read is the whole listing, unless it was cut short at
such an answer or by the number of pages.
-/

namespace Foghorn.Std

/-- What a reader makes of an answer. -/
inductive Page (Row : Type) where
  | fails
  | ends
  | rows (rows : List Row)

/-- What a reader makes of an answer that is not the page it asked for. -/
inductive Stop where
  | fails
  | ends
deriving DecidableEq

/-- The rows of a listing, in the order of a key above `bottom`. -/
structure Listing {Row Key : Type} [LinearOrder Key] (key : Row → Key) (bottom : Key) where
  rows : List Row
  sorted : rows.Pairwise fun left right => key left < key right
  proper : ∀ row ∈ rows, bottom < key row

variable {Row Key Acc : Type} [LinearOrder Key] {key : Row → Key} {bottom : Key}

/-- The key to go on after, `bottom` without a row. -/
def lastKey (key : Row → Key) (bottom : Key) (rows : List Row) : Key :=
  (rows.getLast?.map key).getD bottom

/-- Fold the rows of page after page, until a page is short, names no last key, or is not
answered, for at most `fuel` pages. -/
def readPages (key : Row → Key) (bottom : Key) (short : Nat → Bool) (answer : Nat → Key → Page Row)
    (step : Acc → Row → Acc) : Nat → Nat → Key → Acc → Option Acc
  | 0, _, _, acc => some acc
  | fuel + 1, page, last, acc =>
    match answer page last with
    | .fails => none
    | .ends => some acc
    | .rows rows =>
      if short rows.length ∨ lastKey key bottom rows = bottom then some (rows.foldl step acc)
      else readPages key bottom short answer step fuel (page + 1) (lastKey key bottom rows)
        (rows.foldl step acc)

namespace Listing

/-- The page after a key. -/
def page (listing : Listing key bottom) (size : Nat) (last : Key) : List Row :=
  (listing.rows.filter fun row => last < key row).take size

/-- What the reader makes of the answers of a listing some of whose pages are faulty. -/
def answer (listing : Listing key bottom) (size : Nat) (fault : Nat → Option Stop) (page : Nat)
    (last : Key) : Page Row :=
  match fault page with
  | some .fails => .fails
  | some .ends => .ends
  | none => if listing.page size last = [] then .ends else .rows (listing.page size last)

variable {listing : Listing key bottom}

private theorem lastKey_take (listing : Listing key bottom) {count : Nat} (some_rows : 0 < count)
    (bound : count ≤ listing.rows.length) :
    ∃ row ∈ listing.rows.take count, lastKey key bottom (listing.rows.take count) = key row ∧
      ∀ other ∈ listing.rows.take count, key other ≤ key row := by
  obtain ⟨earlier, row, split⟩ := List.eq_nil_or_concat' (listing.rows.take count)
    |>.resolve_left (List.ne_nil_of_length_pos (by rw [List.length_take]; omega))
  have sorted := listing.sorted.sublist (List.take_sublist count _)
  rw [split] at sorted ⊢
  refine ⟨row, by simp, by simp [lastKey], fun other member => ?_⟩
  rcases List.mem_append.mp member with before | here
  · exact ((List.pairwise_append.mp sorted).2.2 other before row (by simp)).le
  · rw [List.mem_singleton.mp here]

/-- The rows after the last of the first `count` rows are the others. -/
theorem filter_after (count : Nat) (bound : count ≤ listing.rows.length) :
    (listing.rows.filter fun row => lastKey key bottom (listing.rows.take count) < key row) =
      listing.rows.drop count := by
  rcases Nat.eq_zero_or_pos count with rfl | some_rows
  · exact List.filter_eq_self.mpr fun row member => decide_eq_true (listing.proper row member)
  · obtain ⟨row, shown, last, greatest⟩ := lastKey_take listing some_rows bound
    rw [last]
    conv_lhs => rw [← List.take_append_drop count listing.rows]
    rw [List.filter_append, List.filter_eq_nil_iff.mpr, List.filter_eq_self.mpr, List.nil_append]
    · intro other after
      have sorted := listing.sorted
      rw [← List.take_append_drop count listing.rows] at sorted
      exact decide_eq_true ((List.pairwise_append.mp sorted).2.2 row shown other after)
    · intro other before
      simpa using greatest other before

private theorem page_eq {size pages : Nat} (bound : pages * size ≤ listing.rows.length) :
    listing.page size (lastKey key bottom (listing.rows.take (pages * size))) =
      (listing.rows.drop (pages * size)).take size := by
  rw [page, filter_after _ bound]

end Listing

/-- A reader of at most `cap` pages stops after `pages` full ones without having failed, at the
cap or at an answer that it takes for the end. -/
structure CutShort (fault : Nat → Option Stop) (size cap total pages : Nat) : Prop where
  full : pages * size ≤ total
  answered : ∀ page < pages, fault page = none
  stops : pages = cap ∨ pages < cap ∧ fault pages = some .ends

namespace CutShort

variable {fault : Nat → Option Stop} {size cap total page pages : Nat}

/-- What a reader has come past did not stop it. -/
theorem le_of_answered (sound : ∀ earlier < page, fault earlier = none) (bound : page ≤ cap)
    (cut : CutShort fault size cap total pages) : page ≤ pages := by
  by_contra before
  rcases cut.stops with atCap | ⟨-, ends⟩
  · omega
  · exact absurd (sound pages (not_le.mp before) ▸ ends) (by simp)

/-- It stops once. -/
theorem unique (cut : CutShort fault size cap total pages)
    (other : CutShort fault size cap total page) : pages = page := by
  have bound {count : Nat} (stops : CutShort fault size cap total count) : count ≤ cap :=
    stops.stops.elim (fun atCap => atCap.le) fun below => below.1.le
  exact (other.le_of_answered cut.answered (bound cut)).antisymm
    (cut.le_of_answered other.answered (bound other))

end CutShort

section Read

variable {listing : Listing key bottom} {fault : Nat → Option Stop} {size cap : Nat}
  {short : Nat → Bool} {step : Acc → Row → Acc} {init : Acc}

/-- A step that reads a full page. -/
theorem readPages_full (shortSpec : ∀ length ≤ size, short length = true ↔ length < size)
    (positive : 0 < size) {fuel page : Nat} {acc : Acc} (sound : fault page = none)
    (full : (page + 1) * size ≤ listing.rows.length) :
    readPages key bottom short (listing.answer size fault) step (fuel + 1) page
        (lastKey key bottom (listing.rows.take (page * size))) acc =
      readPages key bottom short (listing.answer size fault) step fuel (page + 1)
        (lastKey key bottom (listing.rows.take ((page + 1) * size)))
        (((listing.rows.drop (page * size)).take size).foldl step acc) := by
  rw [Nat.succ_mul] at full
  have whole : listing.rows.take ((page + 1) * size) =
      listing.rows.take (page * size) ++ (listing.rows.drop (page * size)).take size := by
    rw [Nat.succ_mul, List.take_add]
  have length : ((listing.rows.drop (page * size)).take size).length = size := by
    rw [List.length_take, List.length_drop]
    omega
  have occupied : (listing.rows.drop (page * size)).take size ≠ [] :=
    List.ne_nil_of_length_pos (positive.trans_eq length.symm)
  have last : lastKey key bottom (listing.rows.take ((page + 1) * size)) =
      lastKey key bottom ((listing.rows.drop (page * size)).take size) := by
    rw [whole, lastKey, lastKey, List.getLast?_append_of_ne_nil _ occupied]
  have named : lastKey key bottom (listing.rows.take ((page + 1) * size)) ≠ bottom := by
    obtain ⟨row, member, key_eq, -⟩ := listing.lastKey_take
      (Nat.mul_pos (Nat.succ_pos page) positive) (by rw [Nat.succ_mul]; omega)
    rw [key_eq]
    exact (listing.proper row (List.mem_of_mem_take member)).ne'
  have answered : listing.answer size fault page
      (lastKey key bottom (listing.rows.take (page * size))) =
        .rows ((listing.rows.drop (page * size)).take size) := by
    rw [Listing.answer, sound, Listing.page_eq (by omega), if_neg occupied]
  have long : short size = false := by
    rw [Bool.eq_false_iff, Ne, shortSpec size le_rfl]
    exact lt_irrefl size
  rw [readPages, answered]
  dsimp only
  rw [length, long, if_neg (by simpa [← last] using named), ← last]

/-- A step that reads the last page. -/
theorem readPages_last (shortSpec : ∀ length ≤ size, short length = true ↔ length < size)
    {fuel page : Nat} {acc : Acc} (sound : fault page = none)
    (reached : page * size ≤ listing.rows.length)
    (rest : listing.rows.length < (page + 1) * size) :
    readPages key bottom short (listing.answer size fault) step (fuel + 1) page
        (lastKey key bottom (listing.rows.take (page * size))) acc =
      some ((listing.rows.drop (page * size)).foldl step acc) := by
  rw [Nat.succ_mul] at rest
  have all : (listing.rows.drop (page * size)).take size = listing.rows.drop (page * size) := by
    refine List.take_of_length_le ?_
    rw [List.length_drop]
    omega
  have answered : listing.answer size fault page
      (lastKey key bottom (listing.rows.take (page * size))) =
        if listing.rows.drop (page * size) = [] then .ends
        else .rows (listing.rows.drop (page * size)) := by
    rw [Listing.answer, sound, Listing.page_eq reached, all]
  rw [readPages, answered]
  by_cases empty : listing.rows.drop (page * size) = []
  · simp [empty]
  · have isShort : short (listing.rows.drop (page * size)).length = true := by
      rw [shortSpec _ (by rw [List.length_drop]; omega), List.length_drop]
      omega
    rw [if_neg empty]
    dsimp only
    rw [isShort, if_pos (.inl rfl)]

/-- What a reader returns that has come past `page` full pages. -/
theorem readPages_spec (shortSpec : ∀ length ≤ size, short length = true ↔ length < size)
    (positive : 0 < size) {fuel page : Nat} {result : Option Acc} (left : page + fuel = cap)
    (reached : page * size ≤ listing.rows.length) (sound : ∀ earlier < page, fault earlier = none)
    (returns : readPages key bottom short (listing.answer size fault) step fuel page
      (lastKey key bottom (listing.rows.take (page * size)))
      ((listing.rows.take (page * size)).foldl step init) = result) :
    (∃ pages, CutShort fault size cap listing.rows.length pages ∧
        result = some ((listing.rows.take (pages * size)).foldl step init)) ∨
      (∀ pages, ¬ CutShort fault size cap listing.rows.length pages) ∧
        (result = none ∨ result = some (listing.rows.foldl step init)) := by
  induction fuel generalizing page with
  | zero => exact .inl ⟨page, ⟨reached, sound, .inl left⟩, returns.symm⟩
  | succ fuel ih =>
    have below : page < cap := by omega
    have passed {pages : Nat} (cut : CutShort fault size cap listing.rows.length pages) :=
      cut.le_of_answered sound below.le
    cases faulty : fault page with
    | some stop =>
      rw [readPages, Listing.answer, faulty] at returns
      cases stop with
      | ends => exact .inl ⟨page, ⟨reached, sound, .inr ⟨below, faulty⟩⟩, returns.symm⟩
      | fails =>
        refine .inr ⟨fun pages cut => ?_, .inl returns.symm⟩
        rcases (passed cut).eq_or_lt with rfl | after
        · rcases cut.stops with atCap | ⟨-, ends⟩
          · omega
          · exact absurd (faulty ▸ ends) (by simp)
        · exact absurd (cut.answered page after ▸ faulty) (by simp)
    | none =>
      by_cases full : (page + 1) * size ≤ listing.rows.length
      · rw [readPages_full shortSpec positive faulty full, ← List.foldl_append, ← List.take_add,
          ← Nat.succ_mul] at returns
        refine ih (by omega) full (fun earlier before => ?_) returns
        rcases Nat.lt_succ_iff_lt_or_eq.mp before with lt | rfl
        · exact sound earlier lt
        · exact faulty
      · rw [readPages_last shortSpec faulty reached (not_le.mp full), ← List.foldl_append,
          List.take_append_drop] at returns
        refine .inr ⟨fun pages cut => ?_, .inr returns.symm⟩
        rcases (passed cut).eq_or_lt with rfl | after
        · rcases cut.stops with atCap | ⟨-, ends⟩
          · omega
          · exact absurd (faulty ▸ ends) (by simp)
        · exact full ((Nat.mul_le_mul_right size after).trans cut.full)

/-- A reader of a listing from its start. -/
def readListing (key : Row → Key) (bottom : Key) (short : Nat → Bool)
    (answer : Nat → Key → Page Row) (step : Acc → Row → Acc) (cap : Nat) (init : Acc) : Option Acc :=
  readPages key bottom short answer step cap 0 bottom init

/-- What every row of an answer keeps, the reader keeps. -/
theorem readPages_preserves {short : Nat → Bool} {answer : Nat → Key → Page Row}
    {step : Acc → Row → Acc} (inv : Acc → Prop) (kept : ∀ acc row, inv acc → inv (step acc row))
    {fuel page : Nat} {last : Key} {acc result : Acc} (start : inv acc)
    (returns : readPages key bottom short answer step fuel page last acc = some result) :
    inv result := by
  induction fuel generalizing page last acc with
  | zero => exact Option.some.inj returns ▸ start
  | succ fuel ih =>
    rw [readPages] at returns
    split at returns
    · cases returns
    · exact Option.some.inj returns ▸ start
    · rename_i rows _
      have folded : inv (rows.foldl step acc) :=
        List.foldlRecOn rows step start fun acc held row _ => kept acc row held
      split at returns
      · exact Option.some.inj returns ▸ folded
      · exact ih folded returns

private theorem readListing_spec (shortSpec : ∀ length ≤ size, short length = true ↔ length < size)
    (positive : 0 < size) {result : Option Acc}
    (returns : readListing key bottom short (listing.answer size fault) step cap init = result) :
    (∃ pages, CutShort fault size cap listing.rows.length pages ∧
        result = some ((listing.rows.take (pages * size)).foldl step init)) ∨
      (∀ pages, ¬ CutShort fault size cap listing.rows.length pages) ∧
        (result = none ∨ result = some (listing.rows.foldl step init)) := by
  have start : 0 + cap = cap := Nat.zero_add cap
  refine readPages_spec shortSpec positive start (by simp) (by simp) ?_
  simpa [readListing, lastKey] using returns

/-- A reader that is cut short has read the pages before. -/
theorem readListing_cut (shortSpec : ∀ length ≤ size, short length = true ↔ length < size)
    (positive : 0 < size) {pages : Nat} (cut : CutShort fault size cap listing.rows.length pages) :
    readListing key bottom short (listing.answer size fault) step cap init =
      some ((listing.rows.take (pages * size)).foldl step init) := by
  rcases readListing_spec shortSpec positive
    (Eq.refl (readListing key bottom short (listing.answer size fault) step cap init)) with
    ⟨others, again, read⟩ | ⟨uncut, -⟩
  · rw [read, again.unique cut]
  · exact absurd cut (uncut pages)

/-- A reader that is not cut short fails or has read everything. -/
theorem readListing_uncut (shortSpec : ∀ length ≤ size, short length = true ↔ length < size)
    (positive : 0 < size) (uncut : ∀ pages, ¬ CutShort fault size cap listing.rows.length pages) :
    readListing key bottom short (listing.answer size fault) step cap init = none ∨
      readListing key bottom short (listing.answer size fault) step cap init =
        some (listing.rows.foldl step init) := by
  rcases readListing_spec shortSpec positive
    (Eq.refl (readListing key bottom short (listing.answer size fault) step cap init)) with
    ⟨pages, cut, -⟩ | ⟨-, read⟩
  · exact absurd cut (uncut pages)
  · exact read

end Read

end Foghorn.Std
