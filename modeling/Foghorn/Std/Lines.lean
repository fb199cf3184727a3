import Foghorn.Std.Lexeme
import Mathlib.Data.List.Induction

/-!
# Joining texts and packing them

Words joined with a separator are told apart by a symbol that none of them has. `pack` puts
items one after the other into groups, each as full as a test lets it become: nothing is lost,
and a group of more than one item passed the test when its last item came.
-/

namespace Foghorn.Std

section Joined

variable {σ : Type} [DecidableEq σ] {mark : σ} {rest : List σ}

omit [DecidableEq σ] in
/-- The first of some joined words, and each other behind a separator. -/
theorem intercalate_eq_append_flatMap (separator word : List σ) (words : List (List σ)) :
    separator.intercalate (word :: words) = word ++ words.flatMap fun next => separator ++ next := by
  induction words generalizing word with
  | nil => simp
  | cons next words ih => simp [ih next]

/-- A word without a symbol ends where it stands. -/
theorem word_append_inj {word other front back : List σ} (plain : mark ∉ word)
    (otherPlain : mark ∉ other) (front_head : ∀ symbol ∈ front.head?, symbol = mark)
    (back_head : ∀ symbol ∈ back.head?, symbol = mark) (same : word ++ front = other ++ back) :
    word = other ∧ front = back := by
  have inside {word : List σ} (plain : mark ∉ word) : ∀ symbol ∈ word, decide (symbol ≠ mark) = true :=
    fun symbol member => decide_eq_true fun hit => plain (hit ▸ member)
  exact run_append_inj (inside plain) (inside otherPlain)
    (fun symbol first => by simp [front_head symbol first])
    (fun symbol first => by simp [back_head symbol first]) same

/-- Marked words are told apart again by their marks. -/
theorem flatMap_mark_inj {left right : List (List σ)} (leftPlain : ∀ word ∈ left, mark ∉ word)
    (rightPlain : ∀ word ∈ right, mark ∉ word)
    (same : (left.flatMap fun word => (mark :: rest) ++ word) =
      right.flatMap fun word => (mark :: rest) ++ word) : left = right := by
  have head (words : List (List σ)) :
      ∀ symbol ∈ (words.flatMap fun word => (mark :: rest) ++ word).head?, symbol = mark := by
    cases words <;> simp
  induction left generalizing right with
  | nil =>
    cases right with
    | nil => rfl
    | cons => simp at same
  | cons word words ih =>
    cases right with
    | nil => simp at same
    | cons other others =>
      obtain ⟨plain, wordsPlain⟩ := List.forall_mem_cons.mp leftPlain
      obtain ⟨otherPlain, othersPlain⟩ := List.forall_mem_cons.mp rightPlain
      rw [List.flatMap_cons, List.flatMap_cons, List.append_assoc, List.append_assoc] at same
      obtain ⟨rfl, tails⟩ := word_append_inj plain otherPlain (head words) (head others)
        (List.append_cancel_left same)
      rw [ih wordsPlain othersPlain tails]

/-- Words that are not empty are read back from their joined text. -/
theorem words_intercalate_inj {left right : List (List σ)}
    (leftPlain : ∀ word ∈ left, word ≠ [] ∧ mark ∉ word)
    (rightPlain : ∀ word ∈ right, word ≠ [] ∧ mark ∉ word)
    (same : (mark :: rest).intercalate left = (mark :: rest).intercalate right) : left = right := by
  have head (words : List (List σ)) :
      ∀ symbol ∈ (words.flatMap fun word => (mark :: rest) ++ word).head?, symbol = mark := by
    cases words <;> simp
  cases left with
  | nil =>
    cases right with
    | nil => rfl
    | cons other others =>
      rw [intercalate_eq_append_flatMap] at same
      exact absurd (List.append_eq_nil_iff.mp same.symm).1 (rightPlain other List.mem_cons_self).1
  | cons word words =>
    obtain ⟨plain, wordsPlain⟩ := List.forall_mem_cons.mp leftPlain
    cases right with
    | nil =>
      rw [intercalate_eq_append_flatMap] at same
      exact absurd (List.append_eq_nil_iff.mp same).1 plain.1
    | cons other others =>
      obtain ⟨otherPlain, othersPlain⟩ := List.forall_mem_cons.mp rightPlain
      rw [intercalate_eq_append_flatMap, intercalate_eq_append_flatMap] at same
      obtain ⟨rfl, tails⟩ :=
        word_append_inj plain.2 otherPlain.2 (head words) (head others) same
      rw [flatMap_mark_inj (fun next member => (wordsPlain next member).2)
        (fun next member => (othersPlain next member).2) tails]

omit [DecidableEq σ] in
/-- A word is no longer than the text it is joined into. -/
theorem length_le_intercalate (separator : List σ) {word : List σ} {words : List (List σ)}
    (member : word ∈ words) : word.length ≤ (separator.intercalate words).length := by
  cases words with
  | nil => cases member
  | cons first others =>
    rw [intercalate_eq_append_flatMap, List.length_append]
    rcases List.mem_cons.mp member with rfl | later
    · exact Nat.le_add_right _ _
    · have inside : separator ++ word ∈ others.map fun next => separator ++ next :=
        List.mem_map_of_mem later
      have part := (List.sublist_flatten_of_mem inside).length_le
      rw [List.length_append, ← List.flatMap_def] at part
      omega

/-- A word is no longer than the text it is split from. -/
theorem length_le_of_mem_splitOn {text word : List σ} (member : word ∈ text.splitOn mark) :
    word.length ≤ text.length := by
  have part := length_le_intercalate [mark] member
  rwa [List.intercalate_splitOn] at part

/-- A word split from a text has no mark in it. -/
theorem notMem_of_mem_splitOn {text word : List σ} (member : word ∈ text.splitOn mark) :
    mark ∉ word := by
  induction text generalizing word with
  | nil =>
    rw [List.splitOn_nil, List.mem_singleton] at member
    rw [member]
    exact List.not_mem_nil
  | cons symbol text ih =>
    rw [List.splitOn_cons_eq_if_modifyHead] at member
    by_cases hit : symbol = mark
    · rw [if_pos (by simpa using hit)] at member
      rcases List.mem_cons.mp member with rfl | later
      · exact List.not_mem_nil
      · exact ih later
    · rw [if_neg (by simpa using hit)] at member
      cases words : text.splitOn mark with
      | nil => exact absurd words (List.splitOn_ne_nil mark text)
      | cons first others =>
        rw [words, List.modifyHead_cons] at member
        rcases List.mem_cons.mp member with rfl | later
        · rw [List.mem_cons, not_or]
          exact ⟨Ne.symm hit, ih (words ▸ List.mem_cons_self)⟩
        · exact ih (words ▸ List.mem_cons_of_mem _ later)

end Joined

section Pack

variable {α : Type} (fits : List α → α → Bool)

/-- Put an item into the open group, or close that group and open one with the item. -/
def packStep (groups : List (List α) × List α) (item : α) : List (List α) × List α :=
  if fits groups.2 item then (groups.1, groups.2 ++ [item])
  else (groups.1 ++ [groups.2], [item])

/-- The closed groups of some items, and the open one. -/
def pack (items : List α) : List (List α) × List α := items.foldl (packStep fits) ([], [])

/-- A group has no second item, or its last one fitted behind the others. -/
def Packed (group : List α) : Prop :=
  group.length ≤ 1 ∨ ∃ earlier last, group = earlier ++ [last] ∧ fits earlier last

variable {fits}

/-- One more item is packed as one more step. -/
theorem pack_concat (items : List α) (last : α) :
    pack fits (items ++ [last]) = packStep fits (pack fits items) last := by
  simp [pack, List.foldl_append]

/-- Every item is in one group, in order. -/
theorem flatten_pack (items : List α) :
    (pack fits items).1.flatten ++ (pack fits items).2 = items := by
  induction items using List.reverseRecOn with
  | nil => rfl
  | append_singleton earlier last ih =>
    rw [pack_concat, packStep]
    by_cases fitting : fits (pack fits earlier).2 last
    · rw [if_pos fitting, ← List.append_assoc, ih]
    · rw [if_neg fitting, List.flatten_append, List.flatten_singleton, ih]

/-- Every group fits, the last one too. -/
theorem packed_pack (items : List α) :
    (∀ group ∈ (pack fits items).1, Packed fits group) ∧ Packed fits (pack fits items).2 := by
  induction items using List.reverseRecOn with
  | nil => exact ⟨fun group member => absurd member List.not_mem_nil, Or.inl (Nat.zero_le 1)⟩
  | append_singleton earlier last ih =>
    rw [pack_concat, packStep]
    by_cases fitting : fits (pack fits earlier).2 last
    · rw [if_pos fitting]
      exact ⟨ih.1, Or.inr ⟨_, last, rfl, fitting⟩⟩
    · rw [if_neg fitting]
      refine ⟨fun group member => ?_, Or.inl le_rfl⟩
      rcases List.mem_append.mp member with closed | opened
      · exact ih.1 group closed
      · exact List.mem_singleton.mp opened ▸ ih.2

/-- The open group ends with the last item. -/
theorem getLast?_pack (items : List α) : (pack fits items).2.getLast? = items.getLast? := by
  induction items using List.reverseRecOn with
  | nil => rfl
  | append_singleton earlier last _ =>
    rw [pack_concat, packStep]
    split <;> simp

/-- A closed group was left by an item that did not fit. -/
theorem exists_of_mem_pack {items : List α} {group : List α} (member : group ∈ (pack fits items).1) :
    ∃ next, fits group next = false := by
  induction items using List.reverseRecOn with
  | nil => exact absurd member List.not_mem_nil
  | append_singleton earlier last ih =>
    rw [pack_concat, packStep] at member
    by_cases fitting : fits (pack fits earlier).2 last
    · rw [if_pos fitting] at member
      exact ih member
    · rw [if_neg fitting] at member
      rcases List.mem_append.mp member with closed | opened
      · exact ih closed
      · exact ⟨last, List.mem_singleton.mp opened ▸ eq_false_of_ne_true fitting⟩

end Pack

end Foghorn.Std
