import Mathlib.Data.List.Basic
import Mathlib.Data.List.Pairwise
import Mathlib.Data.List.Nodup
import Mathlib.Order.Lattice

/-!
# Pages of a listing with ties

Each page is cut out of a sorted listing of its own, in which tied rows may come in another
order. The pages hold every row once exactly when no group of tied rows crosses the boundary
of two pages.
-/

namespace Foghorn.Std

variable {α : Type}

section Loop

/-- Read page after page until one is short; `none` has not come to one. -/
def readUntilShort (size : Nat) (page : Nat → List α) : Nat → Nat → Option (List α)
  | 0, _ => none
  | fuel + 1, k =>
    let rows := page k
    if rows.length < size then some rows
    else (readUntilShort size page fuel (k + 1)).map (rows ++ ·)

/-- The first short page of a listing is the one that its length ends in. -/
theorem readUntilShort_eq {size total : Nat} (positive : 0 < size) {page : Nat → List α}
    (lengths : ∀ k, (page k).length = min size (total - k * size)) (fuel k : Nat)
    (reached : k ≤ total / size) :
    readUntilShort size page fuel k =
      if total / size - k < fuel then
        some ((List.range' k (total / size - k + 1)).flatMap page)
      else none := by
  induction fuel generalizing k with
  | zero => rfl
  | succ fuel ih =>
    rw [readUntilShort]
    rcases Nat.lt_or_eq_of_le reached with before | last
    · -- A page before the last boundary is full.
      have full : size ≤ total - k * size := by
        have enough : (k + 1) * size ≤ total :=
          Nat.le_trans (Nat.mul_le_mul_right size before) (Nat.div_mul_le_self total size)
        rw [Nat.succ_mul] at enough
        omega
      have long : ¬ (page k).length < size := by
        rw [lengths, Nat.min_eq_left full]
        exact Nat.lt_irrefl _
      obtain ⟨left, remaining⟩ : ∃ left, total / size - k = left + 1 :=
        Nat.exists_eq_add_one.mpr (Nat.sub_pos_of_lt before)
      have later : total / size - (k + 1) = left := by omega
      simp only [if_neg long, ih (k + 1) before, later, remaining, Nat.add_lt_add_iff_right]
      split
      · rfl
      · rfl
    · have rest : total - k * size < size := by
        have split := Nat.div_add_mod total size
        rw [← last, Nat.mul_comm] at split
        have small := Nat.mod_lt total positive
        omega
      have short : (page k).length < size := by rw [lengths]; omega
      have zero : total / size - k = 0 := by omega
      simp [if_pos short, zero]

end Loop

section Sorted

variable {s : List α}

/-- What holds of a prefix of a list holds exactly below its count. -/
theorem holds_iff_lt_countP {holds : α → Bool}
    (down : s.Pairwise fun earlier later => holds later → holds earlier) {i : Nat}
    (inside : i < s.length) : holds s[i] ↔ i < s.countP holds := by
  induction s generalizing i with
  | nil => cases inside
  | cons first rest ih =>
    obtain ⟨below, later⟩ := List.pairwise_cons.mp down
    by_cases head : holds first
    · cases i with
      | zero => simp [head]
      | succ i =>
        have shorter : i < rest.length := by simpa using inside
        rw [List.getElem_cons_succ, ih later shorter, List.countP_cons_of_pos head]
        exact Nat.succ_lt_succ_iff.symm
    · have none_hold : (first :: rest).countP holds = 0 := by
        rw [List.countP_eq_zero]
        rintro row listed held
        rcases List.mem_cons.mp listed with rfl | listed
        · exact head held
        · exact head (below row listed held)
      have there := List.countP_eq_zero.mp none_hold _ (List.getElem_mem inside)
      simp [none_hold, there]

/-- A filter that keeps exactly the first rows is a prefix. -/
theorem filter_eq_take {holds : α → Bool} {m : Nat}
    (first : ∀ i (inside : i < s.length), holds s[i] ↔ i < m) : s.filter holds = s.take m := by
  induction s generalizing m with
  | nil => simp
  | cons row rest ih =>
    have head := first 0 (Nat.zero_lt_succ _)
    cases m with
    | zero =>
      have none_kept : (row :: rest).filter holds = [] := by
        rw [List.filter_eq_nil_iff]
        intro other listed held
        obtain ⟨i, inside, rfl⟩ := List.getElem_of_mem listed
        exact Nat.not_lt_zero i ((first i inside).mp held)
      rw [none_kept, List.take_zero]
    | succ m =>
      have tail : rest.filter holds = rest.take m := ih fun i inside => by
        simpa using first (i + 1) (Nat.succ_lt_succ inside)
      have kept : holds row := head.mpr (Nat.succ_pos m)
      rw [List.filter_cons_of_pos kept, tail, List.take_succ_cons]

end Sorted

section Pages

/-- How many rows come strictly before a row, and how many come no later than it. -/
def countBefore (le : α → α → Bool) (rows : List α) (row : α) : Nat :=
  rows.countP fun other => !le row other

def countUpTo (le : α → α → Bool) (rows : List α) (row : α) : Nat :=
  rows.countP fun other => le other row

/-- The rows tied with a row lie on both sides of a boundary. -/
def TieCrosses (le : α → α → Bool) (rows : List α) (boundary : Nat) : Prop :=
  ∃ row ∈ rows, countBefore le rows row < boundary ∧ boundary < countUpTo le rows row

variable {le : α → α → Bool} (trans : ∀ a b c, le a b → le b c → le a c)
  (total : ∀ a b, (le a b || le b a) = true) {rows s : List α}

private theorem countBefore_perm (perm : s.Perm rows) (row : α) :
    countBefore le s row = countBefore le rows row := perm.countP_eq _

private theorem countUpTo_perm (perm : s.Perm rows) (row : α) :
    countUpTo le s row = countUpTo le rows row := perm.countP_eq _

include trans in
private theorem le_iff_lt_countUpTo (sorted : s.Pairwise fun a b => le a b) {i : Nat}
    (inside : i < s.length) (row : α) : le s[i] row ↔ i < countUpTo le s row :=
  holds_iff_lt_countP (sorted.imp fun first second => trans _ _ _ first second) inside

include trans in
private theorem not_le_iff_lt_countBefore (sorted : s.Pairwise fun a b => le a b) {i : Nat}
    (inside : i < s.length) (row : α) : ¬ le row s[i] ↔ i < countBefore le s row := by
  have down : s.Pairwise fun earlier later => (!le row later) → (!le row earlier) := by
    refine sorted.imp fun {a b} le_ab not_b => ?_
    by_contra not_not
    have le_row : le row a = true := by simpa using not_not
    simp [trans _ _ _ le_row le_ab] at not_b
  rw [countBefore, ← holds_iff_lt_countP down inside]
  simp

include total in
private theorem le_refl_of_total (row : α) : le row row := by simpa using total row row

include trans total in
/-- The rows of the groups that end before an uncrossed boundary are the first ones. -/
theorem filter_countUpTo_eq_take (sorted : s.Pairwise fun a b => le a b) {boundary : Nat}
    (clean : ¬ TieCrosses le s boundary) :
    s.filter (fun row => countUpTo le s row ≤ boundary) = s.take boundary := by
  refine filter_eq_take fun i inside => ?_
  have listed := List.getElem_mem inside
  have upTo := (le_iff_lt_countUpTo trans sorted inside s[i]).mp (le_refl_of_total total _)
  have before : ¬ i < countBefore le s s[i] := fun lt =>
    (not_le_iff_lt_countBefore trans sorted inside s[i]).mpr lt (le_refl_of_total total _)
  rw [decide_eq_true_eq]
  constructor
  · intro ends
    omega
  · intro first
    by_contra beyond
    exact clean ⟨s[i], listed, by omega, by omega⟩

include trans total in
/-- Up to a clean boundary every sorting holds the same rows. -/
theorem filter_countUpTo_perm_take (sorted : s.Pairwise fun a b => le a b) (perm : s.Perm rows)
    {boundary : Nat} (clean : ¬ TieCrosses le rows boundary) :
    (rows.filter fun row => countUpTo le rows row ≤ boundary).Perm (s.take boundary) := by
  have clean : ¬ TieCrosses le s boundary := by
    rintro ⟨row, listed, before, upTo⟩
    exact clean ⟨row, perm.mem_iff.mp listed, countBefore_perm perm row ▸ before,
      countUpTo_perm perm row ▸ upTo⟩
  rw [← filter_countUpTo_eq_take trans total sorted clean]
  simp only [countUpTo_perm perm]
  exact (perm.filter _).symm

/-- A page of a listing, by its number. -/
def pageOf (size : Nat) (listing : List α) (k : Nat) : List α := (listing.drop (k * size)).take size

/-- A page has its size, or what is left. -/
theorem length_pageOf (size : Nat) (listing : List α) (k : Nat) :
    (pageOf size listing k).length = min size (listing.length - k * size) := by
  rw [pageOf, List.length_take, List.length_drop]

private theorem mem_pageOf {size : Nat} {listing : List α} {k i : Nat} {row : α}
    (there : listing[i]? = some row) (lower : k * size ≤ i) (upper : i < (k + 1) * size) :
    row ∈ pageOf size listing k := by
  have shown : (pageOf size listing k)[i - k * size]? = some row := by
    rw [Nat.succ_mul] at upper
    rw [pageOf, List.getElem?_take_of_lt (by omega), List.getElem?_drop, ← there]
    congr 1
    omega
  exact List.mem_of_getElem? shown

variable {listings : Nat → List α} {size : Nat}

include trans total in
/-- Where no tie crosses a boundary, the first pages hold the rows of the groups in them. -/
theorem flatMap_pageOf_perm (sorted : ∀ k, (listings k).Pairwise fun a b => le a b)
    (perm : ∀ k, (listings k).Perm rows) (clean : ∀ k, ¬ TieCrosses le rows (k * size))
    (pages : Nat) :
    ((List.range pages).flatMap fun k => pageOf size (listings k) k).Perm
      (rows.filter fun row => countUpTo le rows row ≤ pages * size) := by
  induction pages with
  | zero =>
    have none_yet := filter_countUpTo_perm_take trans total (sorted 0) (perm 0) (clean 0)
    rw [Nat.zero_mul, List.take_zero] at none_yet
    rw [Nat.zero_mul]
    exact none_yet.symm
  | succ pages ih =>
    have before := filter_countUpTo_perm_take trans total (sorted pages) (perm pages) (clean pages)
    have after := filter_countUpTo_perm_take trans total (sorted pages) (perm pages)
      (clean (pages + 1))
    rw [List.range_succ, List.flatMap_append, List.flatMap_singleton]
    refine ((ih.trans before).append_right _).trans ?_
    rw [pageOf, ← List.take_add, ← Nat.succ_mul]
    exact after.symm

include trans total in
/-- Enough pages hold every row once. -/
theorem flatMap_pageOf_perm_all (sorted : ∀ k, (listings k).Pairwise fun a b => le a b)
    (perm : ∀ k, (listings k).Perm rows) (clean : ∀ k, ¬ TieCrosses le rows (k * size))
    {pages : Nat} (enough : rows.length ≤ pages * size) :
    ((List.range pages).flatMap fun k => pageOf size (listings k) k).Perm rows := by
  have all : (rows.filter fun row => countUpTo le rows row ≤ pages * size) = rows :=
    List.filter_eq_self.mpr fun row _ =>
      decide_eq_true (Nat.le_trans List.countP_le_length enough)
  rw [← all]
  simpa [all] using flatMap_pageOf_perm trans total sorted perm clean pages

/-- Where no two rows are tied, no boundary is crossed. -/
theorem not_tieCrosses_of_antisymm (nodup : rows.Nodup)
    (antisymm : ∀ a ∈ rows, ∀ b ∈ rows, le a b → le b a → a = b) (boundary : Nat) :
    ¬ TieCrosses le rows boundary := by
  classical
  rintro ⟨row, listed, starts, ends⟩
  have others : ∀ other ∈ rows, le other row → (!le row other) = true ∨ other = row := by
    intro other there back
    by_cases forth : le row other
    · exact .inr (antisymm other there row listed back forth)
    · exact .inl (by simpa using forth)
  have split := List.countP_eq_countP_filter_add rows (fun other => le other row)
    fun other => !le row other
  have sooner : (rows.filter fun other => !le row other).countP (fun other => le other row) ≤
      countBefore le rows row := by
    calc (rows.filter fun other => !le row other).countP (fun other => le other row)
        ≤ (rows.filter fun other => !le row other).length := List.countP_le_length
      _ = countBefore le rows row := List.countP_eq_length_filter.symm
  have tied : (rows.filter fun other => !!le row other).countP (fun other => le other row) ≤
      rows.count row := by
    rw [List.countP_filter, List.count]
    refine List.countP_mono_left fun other there both => ?_
    obtain ⟨back, forth⟩ := Bool.and_eq_true_iff.mp both
    rcases others other there back with before | same
    · simp [before] at forth
    · exact beq_iff_eq.mpr same
  have once : rows.count row = 1 := List.count_eq_one_of_mem nodup listed
  have upTo : countUpTo le rows row ≤ countBefore le rows row + 1 := by
    rw [countUpTo, split]
    omega
  omega

/-- Two neighbours, the other way round. -/
def swapAt (position : Nat) (listing : List α) : List α :=
  listing.take position ++ match listing.drop position with
    | first :: second :: rest => second :: first :: rest
    | other => other

/-- A swap loses no row. -/
theorem swapAt_perm (position : Nat) (listing : List α) :
    (swapAt position listing).Perm listing := by
  have whole := List.take_append_drop position listing
  unfold swapAt
  split
  · next first second rest here =>
    rw [here] at whole
    conv_rhs => rw [← whole]
    exact .append_left _ (.swap _ _ _)
  · rw [whole]

/-- Swapping tied neighbours leaves the listing sorted. -/
theorem swapAt_pairwise {before rest : List α} {first second : α} (tied : le second first)
    (sorted : (before ++ first :: second :: rest).Pairwise fun a b => le a b) :
    (before ++ second :: first :: rest).Pairwise fun a b => le a b := by
  simp only [List.pairwise_append, List.pairwise_cons, List.mem_cons, forall_eq_or_imp] at sorted ⊢
  obtain ⟨start, ⟨⟨-, first_rest⟩, second_rest, tail⟩, across⟩ := sorted
  exact ⟨start, ⟨⟨tied, second_rest⟩, first_rest, tail⟩,
    fun row listed => ⟨(across row listed).2.1, (across row listed).1, (across row listed).2.2⟩⟩

include trans in
/-- The rows at the two sides of a crossed boundary are tied. -/
theorem exists_tied_of_crosses (sorted : s.Pairwise fun a b => le a b) {boundary : Nat}
    (crosses : TieCrosses le s boundary) :
    ∃ before first second rest, s = before ++ first :: second :: rest ∧
      before.length + 1 = boundary ∧ le second first := by
  obtain ⟨row, -, starts, ends⟩ := crosses
  have inside : boundary < s.length := Nat.lt_of_lt_of_le ends List.countP_le_length
  have earlier : boundary - 1 < s.length := by omega
  refine ⟨s.take (boundary - 1), s[boundary - 1], s[boundary], s.drop (boundary + 1), ?_, ?_, ?_⟩
  · have step : boundary - 1 + 1 = boundary := by omega
    conv_lhs => rw [← List.take_append_drop (boundary - 1) s]
    rw [List.drop_eq_getElem_cons earlier]
    simp only [step]
    rw [List.drop_eq_getElem_cons inside]
  · rw [List.length_take]
    omega
  · have later := (le_iff_lt_countUpTo trans sorted inside row).mpr ends
    have no_sooner : le row s[boundary - 1] := by
      by_contra sooner
      have := (not_le_iff_lt_countBefore trans sorted earlier row).mp sooner
      omega
    exact trans _ _ _ later no_sooner

include trans in
/-- Where a tie crosses a boundary, two listings show one row on both sides of it. -/
theorem exists_shown_twice (sorted : s.Pairwise fun a b => le a b) (positive : 0 < size) {k : Nat}
    (crosses : TieCrosses le s (k * size)) :
    (swapAt (k * size - 1) s).Pairwise (fun a b => le a b) ∧ 0 < k ∧
      ∃ row, row ∈ pageOf size s (k - 1) ∧ row ∈ pageOf size (swapAt (k * size - 1) s) k := by
  obtain ⟨before, first, second, rest, rfl, length, tied⟩ := exists_tied_of_crosses trans sorted crosses
  have swapped : swapAt (k * size - 1) (before ++ first :: second :: rest) =
      before ++ second :: first :: rest := by
    have position : k * size - 1 = before.length := by omega
    rw [swapAt, position, List.take_left, List.drop_left]
  have later : 0 < k := by
    rcases Nat.eq_zero_or_pos k with rfl | later
    · omega
    · exact later
  rw [swapped]
  have start : (k - 1) * size + size = k * size := by
    rw [← Nat.succ_mul, Nat.succ_eq_add_one, Nat.sub_add_cancel later]
  have here : k - 1 + 1 = k := Nat.sub_add_cancel later
  refine ⟨swapAt_pairwise tied sorted, later, first, ?_, ?_⟩
  · have last : (before ++ first :: second :: rest)[before.length]? = some first := by simp
    exact mem_pageOf last (by omega) (by rw [here]; omega)
  · have head : (before ++ second :: first :: rest)[before.length + 1]? = some first := by simp
    exact mem_pageOf head (by omega) (by rw [Nat.succ_mul]; omega)

include trans in
/-- If those listings show each row once, no tie crosses the boundary. -/
theorem not_crosses_of_shown_once (nodup : rows.Nodup) (sorted : s.Pairwise fun a b => le a b)
    (perm : s.Perm rows) (positive : 0 < size) {pages : Nat} (enough : rows.length < pages * size)
    {k : Nat} (once : ((List.range pages).flatMap fun page =>
      pageOf size (if page < k then s else swapAt (k * size - 1) s) page).Perm rows) :
    ¬ TieCrosses le rows (k * size) := by
  rintro ⟨row, listed, starts, ends⟩
  have crosses : TieCrosses le s (k * size) := by
    refine ⟨row, perm.mem_iff.mpr listed, ?_, ?_⟩
    · rwa [countBefore_perm perm]
    · rwa [countUpTo_perm perm]
  obtain ⟨-, later, twice, earlier_page, later_page⟩ :=
    exists_shown_twice trans sorted positive crosses
  have reached : k < pages := by
    have inside : k * size < pages * size :=
      Nat.lt_trans (Nat.lt_of_lt_of_le ends List.countP_le_length) enough
    exact Nat.lt_of_mul_lt_mul_right inside
  obtain ⟨-, apart⟩ := List.nodup_flatMap.mp (once.nodup_iff.mpr nodup)
  have before : k - 1 < k := Nat.sub_lt later Nat.one_pos
  have disjoint := List.pairwise_iff_getElem.mp apart (k - 1) k
    (by rw [List.length_range]; omega) (by rwa [List.length_range]) before
  simp only [List.getElem_range, Function.onFun, if_pos before, if_neg (Nat.lt_irrefl k)] at disjoint
  exact disjoint earlier_page later_page

end Pages

section Keyset

variable {κ : Type} [LinearOrder κ] {key : α → κ}

/-- A row may come before another, by key. -/
def keyLe (key : α → κ) (first second : α) : Bool := !decide (key second < key first)

private theorem keyLe_iff {first second : α} : keyLe key first second ↔ key first ≤ key second := by
  simp [keyLe]

private theorem keyLe_trans (a b c : α) (ab : keyLe key a b) (bc : keyLe key b c) : keyLe key a c :=
  keyLe_iff.mpr ((keyLe_iff.mp ab).trans (keyLe_iff.mp bc))

private theorem keyLe_total (a b : α) : (keyLe key a b || keyLe key b a) = true := by
  rcases le_total (key a) (key b) with ab | ba
  · simp [keyLe_iff.mpr ab]
  · simp [keyLe_iff.mpr ba]

/-- Ask for the rows after the last key seen until a page is short; each query lists the rows
that it matches in an order of its own. -/
def readAfter (size : Nat) (key : α → κ) (listing : Nat → List α → List α) :
    Nat → Nat → List α → Option (List α)
  | 0, _, _ => none
  | fuel + 1, query, rows =>
    let page := (listing query rows).take size
    if page.length < size then some page
    else match page.getLast? with
      | none => some page
      | some last =>
        (readAfter size key listing fuel (query + 1)
          (rows.filter fun row => key last < key row)).map (page ++ ·)

/-- Whether a tie crosses a boundary does not depend on how the rows are sorted. -/
theorem TieCrosses.of_perm {le : α → α → Bool} {rows s : List α} (perm : s.Perm rows) {boundary : Nat}
    (crosses : TieCrosses le s boundary) : TieCrosses le rows boundary := by
  obtain ⟨row, listed, starts, ends⟩ := crosses
  exact ⟨row, perm.mem_iff.mp listed, countBefore_perm perm row ▸ starts,
    countUpTo_perm perm row ▸ ends⟩

/-- A page that no tie crosses the end of holds exactly the rows up to its last key. -/
theorem filter_keyLe_last {s : List α} {size : Nat} (sorted : s.Pairwise fun a b => keyLe key a b)
    (clean : ¬ TieCrosses (keyLe key) s size) (full : size ≤ s.length) {last : α}
    (ends : (s.take size).getLast? = some last) :
    s.filter (fun row => keyLe key row last) = s.take size := by
  have positive : 0 < size := by
    rcases Nat.eq_zero_or_pos size with rfl | positive
    · simp at ends
    · exact positive
  have inside : size - 1 < s.length := by omega
  have last_eq : s[size - 1] = last := by
    rw [List.getLast?_take, if_neg (Nat.ne_of_gt positive), List.getElem?_eq_getElem inside] at ends
    exact Option.some.inj ends
  have self : keyLe key last last := le_refl_of_total keyLe_total last
  have reaches := (le_iff_lt_countUpTo keyLe_trans sorted inside last).mp (last_eq ▸ self)
  have starts : ¬ size - 1 < countBefore (keyLe key) s last := fun sooner =>
    (not_le_iff_lt_countBefore keyLe_trans sorted inside last).mpr sooner (last_eq ▸ self)
  have upTo : countUpTo (keyLe key) s last = size := by
    by_contra more
    exact clean ⟨last, last_eq ▸ List.getElem_mem inside, by omega, by omega⟩
  refine filter_eq_take fun i inside => ?_
  rw [le_iff_lt_countUpTo keyLe_trans sorted inside last, upTo]

/-- Behind such a page the rows after its last key are the others. -/
theorem page_append_after {rows s : List α} {size : Nat} (sorted : s.Pairwise fun a b => keyLe key a b)
    (perm : s.Perm rows) (clean : ¬ TieCrosses (keyLe key) rows size) (full : size ≤ s.length)
    {last : α} (ends : (s.take size).getLast? = some last) :
    (s.take size ++ rows.filter fun row => key last < key row).Perm rows := by
  have page := filter_keyLe_last sorted (fun crosses => clean (crosses.of_perm perm)) full ends
  have others : (rows.filter fun row => key last < key row) =
      rows.filter fun row => !keyLe key row last := by
    simp [keyLe]
  rw [others, ← page]
  exact ((perm.symm.filter _).append_left _).trans ((List.filter_append_perm _ s).trans perm)

/-- Ties of the later rows are ties of all rows, a page further on. -/
theorem TieCrosses.of_after {rows page rest : List α} (split : (page ++ rest).Perm rows)
    (sooner : ∀ first ∈ page, ∀ later ∈ rest, key first < key later) {boundary : Nat}
    (crosses : TieCrosses (keyLe key) rest boundary) :
    TieCrosses (keyLe key) rows (page.length + boundary) := by
  obtain ⟨row, listed, starts, ends⟩ := crosses
  refine TieCrosses.of_perm split ⟨row, List.mem_append_right _ listed, ?_, ?_⟩
  · have before : countBefore (keyLe key) (page ++ rest) row =
        page.length + countBefore (keyLe key) rest row := by
      rw [countBefore, List.countP_append, countBefore, Nat.add_right_cancel_iff,
        List.countP_eq_length]
      intro first shown
      simpa [keyLe] using sooner first shown row listed
    omega
  · have upTo : countUpTo (keyLe key) (page ++ rest) row =
        page.length + countUpTo (keyLe key) rest row := by
      rw [countUpTo, List.countP_append, countUpTo, Nat.add_right_cancel_iff,
        List.countP_eq_length]
      intro first shown
      exact keyLe_iff.mpr (sooner first shown row listed).le
    omega

/-- Where no tie crosses a boundary, going on after the last key reads every row once. -/
theorem exists_readAfter {size : Nat} (positive : 0 < size) {listing : Nat → List α → List α}
    (sorted : ∀ query rows, (listing query rows).Pairwise fun a b => keyLe key a b)
    (perm : ∀ query rows, (listing query rows).Perm rows) (query : Nat) (rows : List α)
    (clean : ∀ k, ¬ TieCrosses (keyLe key) rows (k * size)) :
    ∃ fuel out, readAfter size key listing fuel query rows = some out ∧ out.Perm rows := by
  have length := (perm query rows).length_eq
  by_cases short : rows.length < size
  · have whole : (listing query rows).take size = listing query rows :=
      List.take_of_length_le (by omega)
    refine ⟨1, listing query rows, ?_, perm query rows⟩
    simp only [readAfter, whole, length, if_pos short]
  · have full : size ≤ (listing query rows).length := by omega
    have page_length : ((listing query rows).take size).length = size :=
      List.length_take_of_le full
    have shown : (listing query rows).take size ≠ [] :=
      List.ne_nil_of_length_pos (by rw [page_length]; exact positive)
    obtain ⟨last, ends⟩ : ∃ last, ((listing query rows).take size).getLast? = some last :=
      ⟨_, List.getLast?_eq_some_getLast shown⟩
    have boundary : ¬ TieCrosses (keyLe key) rows size := by simpa using clean 1
    have split := page_append_after (sorted query rows) (perm query rows) boundary full ends
    have page := filter_keyLe_last (sorted query rows)
      (fun crosses => boundary (crosses.of_perm (perm query rows))) full ends
    have sooner : ∀ first ∈ (listing query rows).take size,
        ∀ later ∈ rows.filter (fun row => key last < key row), key first < key later := by
      intro first first_shown later listed
      rw [← page] at first_shown
      exact (keyLe_iff.mp (List.mem_filter.mp first_shown).2).trans_lt
        (of_decide_eq_true (List.mem_filter.mp listed).2)
    have fewer : (rows.filter fun row => key last < key row).length < rows.length := by
      have total := split.length_eq
      rw [List.length_append, page_length] at total
      omega
    obtain ⟨fuel, out, read, all⟩ := exists_readAfter positive sorted perm (query + 1)
      (rows.filter fun row => key last < key row) fun k crosses => by
        have further := crosses.of_after split sooner
        rw [page_length, Nat.add_comm, ← Nat.succ_mul] at further
        exact clean _ further
    refine ⟨fuel + 1, (listing query rows).take size ++ out, ?_, (all.append_left _).trans split⟩
    simp only [readAfter, page_length, if_neg (Nat.lt_irrefl size), ends, read, Option.map_some]
termination_by rows.length
decreasing_by exact fewer

end Keyset

end Foghorn.Std
