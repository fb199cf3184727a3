import Mathlib.Data.List.DropRight
import Mathlib.Data.List.Induction
import Mathlib.Data.List.TakeWhile

/-!
# The bytes of a text and the space around it

An ASCII character is its own byte, and no byte of any other character is an ASCII byte. So
what stands in ASCII at either end of some bytes stands at that end of the text they decode to.
Trimming takes away what is put around a text and does nothing to a text that is trimmed.
-/

namespace Foghorn.Std

/-- The bytes of a text. -/
def utf8Bytes (chars : List Char) : List UInt8 := chars.flatMap String.utf8EncodeChar

/-- `str::from_utf8`. -/
def fromUtf8 (bytes : List UInt8) : Option String := String.fromUTF8? bytes.toByteArray

def IsAscii (chars : List Char) : Prop := ∀ c ∈ chars, c.toNat < 128

/-- Decided along the text, and not over all characters. -/
instance (chars : List Char) : Decidable (IsAscii chars) :=
  decidable_of_iff (chars.all fun c => decide (c.toNat < 128)) (by simp [IsAscii])

/-- Bytes are read as the text that they encode, and as no other. -/
theorem fromUtf8_eq_some_iff {bytes : List UInt8} {text : String} :
    fromUtf8 bytes = some text ↔ utf8Bytes text.toList = bytes := by
  have encoded : text.toByteArray = (utf8Bytes text.toList).toByteArray := by
    rw [← String.utf8Encode_toList, List.utf8Encode, utf8Bytes]
  have arrays : utf8Bytes text.toList = bytes ↔ text.toByteArray = bytes.toByteArray := by
    rw [encoded]
    constructor
    · exact congrArg List.toByteArray
    · intro same
      have data := congrArg ByteArray.data same
      rw [List.data_toByteArray, List.data_toByteArray] at data
      simpa using data
  rw [arrays, fromUtf8, String.fromUTF8?]
  constructor
  · intro decoded
    split at decoded
    · rw [← Option.some.inj decoded]
      rfl
    · cases decoded
  · intro same
    have valid : bytes.toByteArray.IsValidUTF8 := same ▸ text.isValidUTF8
    rw [dif_pos valid]
    exact congrArg some (String.toByteArray_inj.mp same.symm)

private theorem utf8EncodeChar_ascii {c : Char} (ascii : c.toNat < 128) :
    String.utf8EncodeChar c = [UInt8.ofNat c.toNat] := by
  have small : c.val.toNat ≤ 127 := Nat.le_of_lt_succ ascii
  simp only [String.utf8EncodeChar, small, if_true]
  rfl

private theorem le_of_mem_utf8EncodeChar {c : Char} (other : ¬ c.toNat < 128) {byte : UInt8}
    (member : byte ∈ String.utf8EncodeChar c) : 128 ≤ byte.toNat := by
  have large : ¬ c.val.toNat ≤ 127 := fun small => other (Nat.lt_succ_of_le small)
  simp only [String.utf8EncodeChar, large, if_false] at member
  split at member
  · simp only [List.mem_cons, List.not_mem_nil, or_false] at member
    rcases member with rfl | rfl <;> rw [UInt8.toNat_ofNat'] <;> omega
  · split at member
    · simp only [List.mem_cons, List.not_mem_nil, or_false] at member
      rcases member with rfl | rfl | rfl <;> rw [UInt8.toNat_ofNat'] <;> omega
    · simp only [List.mem_cons, List.not_mem_nil, or_false] at member
      rcases member with rfl | rfl | rfl | rfl <;> rw [UInt8.toNat_ofNat'] <;> omega

@[simp] theorem utf8Bytes_nil : utf8Bytes [] = [] := rfl

/-- The first character's bytes come first. -/
theorem utf8Bytes_cons (c : Char) (chars : List Char) :
    utf8Bytes (c :: chars) = String.utf8EncodeChar c ++ utf8Bytes chars := List.flatMap_cons

/-- The bytes of two texts in a row are those of one after the other. -/
theorem utf8Bytes_append (chars others : List Char) :
    utf8Bytes (chars ++ others) = utf8Bytes chars ++ utf8Bytes others := List.flatMap_append

/-- An ASCII text has one byte for each character. -/
theorem utf8Bytes_ascii {chars : List Char} (ascii : IsAscii chars) :
    utf8Bytes chars = chars.map fun c => UInt8.ofNat c.toNat := by
  induction chars with
  | nil => rfl
  | cons c rest ih =>
    obtain ⟨first, others⟩ := List.forall_mem_cons.mp ascii
    rw [utf8Bytes_cons, utf8EncodeChar_ascii first, ih others]
    rfl

private theorem length_le_length_utf8Bytes (chars : List Char) :
    chars.length ≤ (utf8Bytes chars).length := by
  induction chars with
  | nil => exact le_rfl
  | cons c rest ih =>
    have bytes : 0 < (String.utf8EncodeChar c).length :=
      List.length_pos_iff.mpr String.utf8EncodeChar_ne_nil
    rw [utf8Bytes_cons, List.length_cons, List.length_append]
    omega

/-- A text has at least as many bytes as characters. -/
theorem length_le_utf8ByteSize (text : String) : text.length ≤ text.utf8ByteSize := by
  have bytes : text.utf8ByteSize = (utf8Bytes text.toList).length := by
    rw [← String.size_toByteArray, ← String.utf8Encode_toList, List.utf8Encode, utf8Bytes]
    simp
  rw [bytes, ← String.length_toList]
  exact length_le_length_utf8Bytes _

private theorem ofNat_toNat_inj {c d : Char} (ascii : c.toNat < 128) (others : d.toNat < 128)
    (same : UInt8.ofNat c.toNat = UInt8.ofNat d.toNat) : c = d := by
  have numbers := congrArg UInt8.toNat same
  rw [UInt8.toNat_ofNat', UInt8.toNat_ofNat'] at numbers
  exact Char.toNat_inj.mp (by omega)

/-- A text whose first byte is ASCII begins with that character. -/
theorem cons_of_utf8Bytes {chars : List Char} {c : Char} {rest : List UInt8} (ascii : c.toNat < 128)
    (same : utf8Bytes chars = UInt8.ofNat c.toNat :: rest) :
    ∃ tail, chars = c :: tail ∧ utf8Bytes tail = rest := by
  cases chars with
  | nil => cases same
  | cons d tail =>
    rw [utf8Bytes_cons] at same
    by_cases first : d.toNat < 128
    · rw [utf8EncodeChar_ascii first] at same
      obtain ⟨bytes, tails⟩ := List.cons.inj same
      obtain rfl := ofNat_toNat_inj first ascii bytes
      exact ⟨tail, rfl, tails⟩
    · have begins : UInt8.ofNat c.toNat ∈ String.utf8EncodeChar d := by
        cases encoded : String.utf8EncodeChar d with
        | nil => exact absurd encoded String.utf8EncodeChar_ne_nil
        | cons byte others =>
          rw [encoded] at same
          exact (List.cons.inj same).1 ▸ List.mem_cons_self
      have bound := le_of_mem_utf8EncodeChar first begins
      rw [UInt8.toNat_ofNat'] at bound
      omega

/-- A text whose last byte is ASCII ends with that character. -/
theorem concat_of_utf8Bytes {chars : List Char} {c : Char} {front : List UInt8}
    (ascii : c.toNat < 128) (same : utf8Bytes chars = front ++ [UInt8.ofNat c.toNat]) :
    ∃ before, chars = before ++ [c] ∧ utf8Bytes before = front := by
  rcases List.eq_nil_or_concat chars with rfl | ⟨before, d, rfl⟩
  · exact absurd same.symm (by simp)
  · rw [List.concat_eq_append, utf8Bytes_append, utf8Bytes_cons] at same
    rw [List.concat_eq_append]
    have last : utf8Bytes before ++ String.utf8EncodeChar d = front ++ [UInt8.ofNat c.toNat] := by
      rw [← same, utf8Bytes_nil, List.append_nil]
    by_cases final : d.toNat < 128
    · rw [utf8EncodeChar_ascii final] at last
      obtain ⟨fronts, bytes⟩ := List.append_inj' last rfl
      obtain rfl := ofNat_toNat_inj final ascii (List.cons.inj bytes).1
      exact ⟨before, rfl, fronts⟩
    · have ends : UInt8.ofNat c.toNat ∈ String.utf8EncodeChar d := by
        have final := congrArg List.getLast? last
        rw [List.getLast?_append, List.getLast?_concat,
          List.getLast?_eq_some_getLast String.utf8EncodeChar_ne_nil] at final
        exact Option.some.inj final ▸ List.getLast_mem String.utf8EncodeChar_ne_nil
      have bound := le_of_mem_utf8EncodeChar final ends
      rw [UInt8.toNat_ofNat'] at bound
      omega

/-- What stands in ASCII at the end of the bytes stands at the end of the text. -/
theorem append_of_utf8Bytes {chars final : List Char} {front : List UInt8} (ascii : IsAscii final)
    (same : utf8Bytes chars = front ++ utf8Bytes final) :
    ∃ before, chars = before ++ final ∧ utf8Bytes before = front := by
  induction final using List.reverseRecOn generalizing chars with
  | nil => exact ⟨chars, (List.append_nil chars).symm, by simpa using same⟩
  | append_singleton final c ih =>
    have last : c.toNat < 128 := ascii c (by simp)
    have others : IsAscii final := fun d member => ascii d (List.mem_append_left _ member)
    rw [utf8Bytes_append, utf8Bytes_cons, utf8EncodeChar_ascii last, utf8Bytes_nil, List.append_nil,
      ← List.append_assoc] at same
    obtain ⟨middle, rfl, inner⟩ := concat_of_utf8Bytes last same
    obtain ⟨before, rfl, fronts⟩ := ih others inner
    exact ⟨before, List.append_assoc _ _ _, fronts⟩

section Trim

variable {space : Char → Bool} {lead body trail chars : List Char}

/-- A text without the characters of a kind at both ends. -/
def trimBy (space : Char → Bool) (chars : List Char) : List Char :=
  ((chars.dropWhile space).reverse.dropWhile space).reverse

private theorem trimBy_of_all (spaces : ∀ c ∈ chars, space c) : trimBy space chars = [] := by
  rw [trimBy, List.dropWhile_eq_nil_iff.mpr spaces]
  rfl

/-- What is put around a text is taken away. -/
theorem trimBy_append (leadSpaces : ∀ c ∈ lead, space c) (trailSpaces : ∀ c ∈ trail, space c) :
    trimBy space (lead ++ body ++ trail) = trimBy space body := by
  by_cases blank : ∀ c ∈ body, space c = true
  · have all : ∀ c ∈ lead ++ body ++ trail, space c = true := by
      simp only [List.mem_append]
      rintro c ((first | inside) | last)
      · exact leadSpaces c first
      · exact blank c inside
      · exact trailSpaces c last
    rw [trimBy_of_all all, trimBy_of_all blank]
  · have kept : body.dropWhile space ≠ [] := fun empty => blank (List.dropWhile_eq_nil_iff.mp empty)
    have reversed : ∀ c ∈ trail.reverse, space c = true := fun c member =>
      trailSpaces c (List.mem_reverse.mp member)
    rw [trimBy, trimBy, List.append_assoc, List.dropWhile_append_of_pos leadSpaces,
      List.dropWhile_append, if_neg (by simpa using kept), List.reverse_append,
      List.dropWhile_append_of_pos reversed]

/-- A text that begins and ends otherwise is left as it is. -/
theorem trimBy_eq_self (first : ∀ c ∈ chars.head?, space c = false)
    (last : ∀ c ∈ chars.getLast?, space c = false) : trimBy space chars = chars := by
  have front : chars.dropWhile space = chars := by
    cases chars with
    | nil => rfl
    | cons c rest => rw [List.dropWhile_cons, first c rfl]; rfl
  have back : chars.reverse.dropWhile space = chars.reverse := by
    rw [← List.head?_reverse] at last
    cases reversed : chars.reverse with
    | nil => rfl
    | cons c rest => rw [List.dropWhile_cons, last c (by rw [reversed]; rfl)]; rfl
  rw [trimBy, front, back, List.reverse_reverse]

private theorem head?_dropWhile_space : ∀ c ∈ (chars.dropWhile space).head?, space c = false := by
  intro c first
  have kept := List.head?_dropWhile_not space chars
  rw [Option.mem_def.mp first] at kept
  exact kept

/-- Trimming is done at once. -/
theorem trimBy_trimBy (chars : List Char) :
    trimBy space (trimBy space chars) = trimBy space chars := by
  apply trimBy_eq_self
  · intro c first
    have front : trimBy space chars <+: chars.dropWhile space :=
      List.rdropWhile_prefix space (chars.dropWhile space)
    obtain ⟨rest, whole⟩ := front
    refine @head?_dropWhile_space space chars c ?_
    rw [← whole, List.head?_append, Option.mem_def.mp first]
    rfl
  · intro c last
    rw [trimBy, List.getLast?_reverse] at last
    exact head?_dropWhile_space c last

end Trim

end Foghorn.Std
