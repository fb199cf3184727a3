import Foghorn.Std.TreeText

/-!
# Words of JSON text

A literal or a number is a run of characters that no punctuation interrupts; a string stands
between quotes, and inside it a backslash takes the next character with it. Both end where
the text says, whatever stands behind.
-/

namespace Foghorn.Std

/-- Commas, brackets and quotes, none of which occurs in a literal or a number. -/
def jsonPunctuation : List Char := [',', ']', '}', '[', '{', '"', ':']

/-- A literal or a number. -/
structure PlainWord (word : List Char) : Prop where
  nonempty : word ≠ []
  plain : ∀ c ∈ word, c ∉ jsonPunctuation

def isNumberChar (c : Char) : Bool := c.isDigit || c ∈ ['+', '-', '.', 'e', 'E']

/-- Digits, signs, dots and exponents, as a number is written with. -/
structure NumberWord (word : List Char) : Prop where
  nonempty : word ≠ []
  decimal : ∀ c ∈ word, isNumberChar c

/-- What may stand between the quotes of a string. -/
def isStringBody : List Char → Bool
  | [] => true
  | '\\' :: _ :: rest => isStringBody rest
  | c :: rest => c != '"' && c != '\\' && isStringBody rest

def QuotedWord (word : List Char) : Prop :=
  ∃ body, isStringBody body ∧ word = '"' :: (body ++ ['"'])

/-- A text that is written symbol by symbol is read back when no code begins another. -/
theorem flatMap_code_inj {α σ : Type} {code : α → List σ}
    (unique : ∀ {x y rest more}, code x ++ rest = code y ++ more → x = y)
    (nonempty : ∀ x, code x ≠ []) {symbols others : List α}
    (same : symbols.flatMap code = others.flatMap code) : symbols = others := by
  induction symbols generalizing others with
  | nil =>
    cases others with
    | nil => rfl
    | cons y ys => exact absurd (List.append_eq_nil_iff.mp same.symm).1 (nonempty y)
  | cons x xs ih =>
    cases others with
    | nil => exact absurd (List.append_eq_nil_iff.mp same).1 (nonempty x)
    | cons y ys =>
      rw [List.flatMap_cons, List.flatMap_cons] at same
      obtain rfl := unique same
      rw [ih (List.append_cancel_left same)]

/-- A run of symbols of one kind ends where the first of another kind stands. -/
theorem run_append_inj {σ : Type} {inside : σ → Bool} {word other rest more : List σ}
    (run : ∀ symbol ∈ word, inside symbol) (otherRun : ∀ symbol ∈ other, inside symbol)
    (stops : ∀ symbol ∈ rest.head?, inside symbol = false)
    (moreStops : ∀ symbol ∈ more.head?, inside symbol = false)
    (same : word ++ rest = other ++ more) : word = other ∧ rest = more := by
  have cut {word rest : List σ} (run : ∀ symbol ∈ word, inside symbol)
      (stops : ∀ symbol ∈ rest.head?, inside symbol = false) :
      (word ++ rest).takeWhile inside = word := by
    rw [List.takeWhile_append_of_pos run]
    cases rest with
    | nil => simp
    | cons symbol rest => simp [stops symbol rfl]
  have words : word = other := by rw [← cut run stops, same, cut otherRun moreStops]
  subst words
  exact ⟨rfl, List.append_cancel_left same⟩

section Plain

variable {word other rest more : List Char} {ends : List Char}

/-- A plain word ends where the first punctuation stands. -/
theorem PlainWord.readsAs (plain : PlainWord word) (others : PlainWord other)
    (ends_sub : ends ⊆ jsonPunctuation) : ReadsAs ends word other := by
  intro rest more stops moreStops same
  have punctuation {rest : List Char} (stops : Stops ends rest) :
      ∀ c ∈ rest.head?, decide (c ∉ jsonPunctuation) = false :=
    fun c first => by simpa using ends_sub (stops c first)
  exact (run_append_inj (fun c member => decide_eq_true (plain.plain c member))
    (fun c member => decide_eq_true (others.plain c member)) (punctuation stops)
    (punctuation moreStops) same).1

/-- A plain word begins with a character that is no punctuation. -/
theorem PlainWord.head (plain : PlainWord word) :
    ∃ c tail, word = c :: tail ∧ c ∉ jsonPunctuation := by
  cases word with
  | nil => exact absurd rfl plain.nonempty
  | cons c tail => exact ⟨c, tail, rfl, plain.plain c List.mem_cons_self⟩

/-- A number word is plain. -/
theorem NumberWord.plain (number : NumberWord word) : PlainWord word where
  nonempty := number.nonempty
  plain c member mark := by
    have decimal := number.decimal c member
    have marks : ∀ c ∈ jsonPunctuation, isNumberChar c = false := by simp [jsonPunctuation, isNumberChar]
    rw [marks c mark] at decimal
    cases decimal

/-- A number is no literal: those have letters that no number has. -/
theorem NumberWord.ne_of_mem (number : NumberWord word) {c : Char} (member : c ∈ other)
    (letter : isNumberChar c = false) : word ≠ other := by
  rintro rfl
  have decimal := number.decimal c member
  rw [letter] at decimal
  cases decimal

/-- A text that begins with a plain word begins with no quoted one. -/
theorem PlainWord.ne_quoted (plain : PlainWord word) (quoted : QuotedWord other) :
    word ++ rest ≠ other ++ more := by
  obtain ⟨c, tail, rfl, clear⟩ := plain.head
  obtain ⟨body, _, rfl⟩ := quoted
  intro same
  obtain rfl : c = '"' := (List.cons.inj same).1
  exact clear (by decide)

/-- No plain word is a quoted one. -/
theorem PlainWord.ne (plain : PlainWord word) (quoted : QuotedWord other) : word ≠ other := by
  intro same
  exact plain.ne_quoted quoted (congrArg (· ++ []) same)

end Plain

section Quoted

variable {body other rest more : List Char}

/-- The ways a string body can begin. -/
theorem isStringBody_cases (inside : isStringBody body) :
    body = [] ∨ (∃ escaped tail, body = '\\' :: escaped :: tail ∧ isStringBody tail) ∨
      ∃ c tail, body = c :: tail ∧ c ≠ '"' ∧ c ≠ '\\' ∧ isStringBody tail := by
  unfold isStringBody at inside
  split at inside
  · exact .inl rfl
  · exact .inr (.inl ⟨_, _, rfl, inside⟩)
  · simp only [Bool.and_eq_true, bne_iff_ne] at inside
    exact .inr (.inr ⟨_, _, rfl, inside.1.1, inside.1.2, inside.2⟩)

/-- A string body ends at the first quote that no backslash stands before. -/
theorem isStringBody_inj (inside : isStringBody body) (others : isStringBody other)
    (same : body ++ '"' :: rest = other ++ '"' :: more) : body = other ∧ rest = more := by
  induction length : body.length using Nat.strong_induction_on generalizing body other with
  | _ size ih =>
    rcases isStringBody_cases inside with rfl | ⟨escaped, tail, rfl, tailInside⟩ |
      ⟨c, tail, rfl, notQuote, notEscape, tailInside⟩
    · rcases isStringBody_cases others with rfl | ⟨_, _, rfl, _⟩ | ⟨c, _, rfl, notQuote, _⟩
      · exact ⟨rfl, (List.cons.inj same).2⟩
      · exact absurd (List.cons.inj same).1 (by decide)
      · exact absurd (List.cons.inj same).1.symm notQuote
    · rcases isStringBody_cases others with rfl | ⟨escape, final, rfl, finalInside⟩ |
        ⟨c, _, rfl, _, notEscape, _⟩
      · exact absurd (List.cons.inj same).1 (by decide)
      · obtain ⟨rfl, tails⟩ := List.cons.inj (List.cons.inj same).2
        obtain ⟨rfl, ends⟩ := ih tail.length (by simp at length; omega) tailInside finalInside tails rfl
        exact ⟨rfl, ends⟩
      · exact absurd (List.cons.inj same).1.symm notEscape
    · rcases isStringBody_cases others with rfl | ⟨_, _, rfl, _⟩ | ⟨_, final, rfl, _, _, finalInside⟩
      · exact absurd (List.cons.inj same).1 notQuote
      · exact absurd (List.cons.inj same).1 notEscape
      · obtain ⟨rfl, tails⟩ := List.cons.inj same
        obtain ⟨rfl, ends⟩ := ih tail.length (by simp at length; omega) tailInside finalInside tails rfl
        exact ⟨rfl, ends⟩

/-- A string is read the same way whatever stands behind it. -/
theorem QuotedWord.append_inj {word partner : List Char} (quoted : QuotedWord word)
    (others : QuotedWord partner) (same : word ++ rest = partner ++ more) : word = partner := by
  obtain ⟨body, inside, rfl⟩ := quoted
  obtain ⟨final, finalInside, rfl⟩ := others
  rw [List.cons_append, List.cons_append, List.append_assoc, List.append_assoc] at same
  obtain ⟨rfl, _⟩ := isStringBody_inj inside finalInside (List.cons.inj same).2
  rfl

end Quoted

section Escape

/-- The characters of a string that are not written as they stand. -/
def isEscaped (c : Char) : Bool := c = '"' || c = '\\' || c.toNat < 32

def lowerHexDigit (nibble : Nat) : Char := "0123456789abcdef".toList.getD nibble '0'

/-- One character of a string: `\\n` and its like where there is a short form, `\\u00` and two
digits for the other control characters. -/
def escapeChar (c : Char) : List Char :=
  if c = '"' then ['\\', '"']
  else if c = '\\' then ['\\', '\\']
  else if c.toNat = 8 then ['\\', 'b']
  else if c.toNat = 9 then ['\\', 't']
  else if c.toNat = 10 then ['\\', 'n']
  else if c.toNat = 12 then ['\\', 'f']
  else if c.toNat = 13 then ['\\', 'r']
  else if c.toNat < 32 then
    ['\\', 'u', '0', '0', lowerHexDigit (c.toNat / 16), lowerHexDigit (c.toNat % 16)]
  else [c]

/-- The string a text is written as. -/
def quoteText (text : String) : String :=
  String.ofList ('"' :: (text.toList.flatMap escapeChar ++ ['"']))

private theorem escapeChar_plain {c : Char} (plain : isEscaped c = false) :
    escapeChar c = [c] ∧ c ≠ '"' ∧ c ≠ '\\' := by
  simp only [isEscaped, Bool.or_eq_false_iff, decide_eq_false_iff_not] at plain
  obtain ⟨⟨notQuote, notEscape⟩, printable⟩ := plain
  refine ⟨?_, notQuote, notEscape⟩
  rw [escapeChar, if_neg notQuote, if_neg notEscape, if_neg (by omega), if_neg (by omega),
    if_neg (by omega), if_neg (by omega), if_neg (by omega), if_neg printable]

def escapedCodes : List Nat := List.range 32 ++ [34, 92]

private theorem mem_escapedCodes {c : Char} (escaped : isEscaped c = true) :
    c.toNat ∈ escapedCodes := by
  simp only [isEscaped, Bool.or_eq_true, decide_eq_true_eq] at escaped
  rcases escaped with (rfl | rfl) | control
  · decide
  · decide
  · exact List.mem_append_left _ (List.mem_range.mpr control)

/-- An escape begins with a backslash, can stand in a string, and none begins as another. -/
theorem escapeChar_escaped {c : Char} (escaped : isEscaped c = true) :
    (∃ tail, escapeChar c = '\\' :: tail) ∧ isStringBody (escapeChar c) ∧
      ∀ d, isEscaped d = true → escapeChar c <+: escapeChar d → c = d := by
  have table : ∀ code ∈ escapedCodes, (escapeChar (Char.ofNat code)).head? = some '\\' ∧
      isStringBody (escapeChar (Char.ofNat code)) ∧ ∀ other ∈ escapedCodes,
        escapeChar (Char.ofNat code) <+: escapeChar (Char.ofNat other) → code = other := by
    decide
  obtain ⟨head, inside, apart⟩ := table c.toNat (mem_escapedCodes escaped)
  rw [Char.ofNat_toNat] at head inside apart
  refine ⟨List.head?_eq_some_iff.mp head, inside, fun d other starts => ?_⟩
  refine Char.toNat_inj.mp (apart d.toNat (mem_escapedCodes other) ?_)
  rwa [Char.ofNat_toNat]

private theorem escapeChar_inj {c d : Char} {rest more : List Char}
    (same : escapeChar c ++ rest = escapeChar d ++ more) : c = d := by
  cases left : isEscaped c with
  | false =>
    cases right : isEscaped d with
    | false =>
      rw [(escapeChar_plain left).1, (escapeChar_plain right).1] at same
      exact (List.cons.inj same).1
    | true =>
      obtain ⟨tail, begins⟩ := (escapeChar_escaped right).1
      rw [(escapeChar_plain left).1, begins] at same
      exact absurd (List.cons.inj same).1 (escapeChar_plain left).2.2
  | true =>
    cases right : isEscaped d with
    | false =>
      obtain ⟨tail, begins⟩ := (escapeChar_escaped left).1
      rw [(escapeChar_plain right).1, begins] at same
      exact absurd (List.cons.inj same).1.symm (escapeChar_plain right).2.2
    | true =>
      rcases List.prefix_or_prefix_of_prefix (List.prefix_append _ rest)
        (same ▸ List.prefix_append _ more) with starts | starts
      · exact (escapeChar_escaped left).2.2 d right starts
      · exact ((escapeChar_escaped right).2.2 c left starts).symm

private theorem escapeChar_ne_nil (c : Char) : escapeChar c ≠ [] := by
  cases escaped : isEscaped c with
  | false => simp [(escapeChar_plain escaped).1]
  | true =>
    obtain ⟨tail, begins⟩ := (escapeChar_escaped escaped).1
    simp [begins]

private theorem isStringBody_append {body rest : List Char} (inside : isStringBody body) :
    isStringBody (body ++ rest) = isStringBody rest := by
  induction body using isStringBody.induct with
  | case1 => rfl
  | case2 escaped tail ih => exact ih inside
  | case3 c tail plain ih =>
    rcases isStringBody_cases inside with empty | ⟨escaped, others, same, _⟩ |
      ⟨_, _, same, notQuote, notEscape, tailInside⟩
    · cases empty
    · obtain ⟨rfl, rfl⟩ := List.cons.inj same
      exact absurd rfl (plain escaped others rfl)
    · obtain ⟨rfl, rfl⟩ := List.cons.inj same
      simp [isStringBody, notQuote, notEscape, ih tailInside]

private theorem isStringBody_escape (chars : List Char) :
    isStringBody (chars.flatMap escapeChar) := by
  induction chars with
  | nil => rfl
  | cons c cs ih =>
    rw [List.flatMap_cons]
    cases escaped : isEscaped c with
    | false =>
      obtain ⟨plain, notQuote, notEscape⟩ := escapeChar_plain escaped
      rw [plain]
      simp [isStringBody, notQuote, notEscape, ih]
    | true => rwa [isStringBody_append (escapeChar_escaped escaped).2.1]

/-- The quoted text is a quoted word. -/
theorem quoteText_quoted (text : String) : QuotedWord (quoteText text).toList :=
  ⟨_, isStringBody_escape text.toList, String.toList_ofList⟩

/-- Different texts are quoted differently. -/
theorem quoteText_injective : Function.Injective quoteText := by
  intro left right same
  have chars := congrArg String.toList same
  rw [quoteText, quoteText, String.toList_ofList, String.toList_ofList] at chars
  exact String.toList_injective (flatMap_code_inj escapeChar_inj escapeChar_ne_nil
    (List.append_cancel_right (List.cons.inj chars).2))

end Escape

end Foghorn.Std
