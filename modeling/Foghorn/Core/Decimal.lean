import Foghorn.Std.Lexeme
import Foghorn.Core.Json

/-!
# Numbers in decimal text

What is written of a number is read back as the number.
-/

namespace Foghorn.Core

open Foghorn.Std

/-- A decimal numeral is made of digits. -/
theorem isDigit_of_mem_toDigits {number : Nat} {c : Char} (listed : c ∈ Nat.toDigits 10 number) :
    c.isDigit :=
  Nat.isDigit_of_mem_toDigits (by decide) (by decide) listed

/-- A decimal numeral has no character but digits. -/
theorem notMem_toDigits {c : Char} (other : c.isDigit = false) (number : Nat) :
    c ∉ Nat.toDigits 10 number := fun listed => by
  rw [isDigit_of_mem_toDigits listed] at other
  cases other

/-- An integer's text has no character but digits and the sign. -/
theorem notMem_repr {c : Char} (other : c.isDigit = false) (sign : c ≠ '-') (number : Int) :
    c ∉ number.repr.toList := by
  rw [Int.repr_eq_if]
  split
  · rw [Nat.toList_repr]
    exact notMem_toDigits other _
  · rw [String.toList_append, Nat.toList_repr]
    simpa [sign] using notMem_toDigits other _

private theorem slash_notMem_repr (number : Int) : '/' ∉ number.repr.toList :=
  notMem_repr rfl (by decide) number

private theorem foldlM_digits {digits : List Char} (decimal : ∀ c ∈ digits, c.isDigit)
    (value : Nat) :
    digits.foldlM (fun value digit =>
        if digit.isDigit then some (10 * value + (digit.toNat - '0'.toNat)) else none) value =
      some (Nat.ofDigitChars 10 digits value) := by
  induction digits generalizing value with
  | nil => rw [Nat.ofDigitChars_nil]; rfl
  | cons first rest ih =>
    obtain ⟨digit, later⟩ := List.forall_mem_cons.mp decimal
    rw [List.foldlM_cons, if_pos digit, Nat.ofDigitChars_cons, Option.bind_eq_bind,
      Option.bind_some, ih later]

/-- Reading a decimal numeral gives its number back. -/
theorem digitsValue_toDigits (number : Nat) : digitsValue (Nat.toDigits 10 number) = some number := by
  rw [digitsValue, if_neg Nat.toDigits_ne_nil, foldlM_digits fun c => isDigit_of_mem_toDigits,
    Nat.ofDigitChars_ten_toDigits]

/-- The number behind an optional sign. -/
def signedValue : List Char → Option Int
  | '-' :: digits => (digitsValue digits).map fun value => -(value : Int)
  | '+' :: digits => (digitsValue digits).map Int.ofNat
  | digits => (digitsValue digits).map Int.ofNat

/-- Reading an integer's text gives the integer back. -/
theorem signedValue_repr (number : Int) : signedValue number.repr.toList = some number := by
  rw [Int.repr_eq_if]
  by_cases natural : 0 ≤ number
  · rw [if_pos natural, Nat.toList_repr]
    have decimal := digitsValue_toDigits number.toNat
    have minus := notMem_toDigits (c := '-') rfl number.toNat
    have plus := notMem_toDigits (c := '+') rfl number.toNat
    generalize Nat.toDigits 10 number.toNat = digits at decimal minus plus
    rw [signedValue.eq_def]
    split
    · exact absurd List.mem_cons_self minus
    · exact absurd List.mem_cons_self plus
    · rw [decimal, Option.map_some, Int.ofNat_eq_natCast, Int.toNat_of_nonneg natural]
  · rw [if_neg natural, String.toList_append, Nat.toList_repr]
    have value : -((-number).toNat : Int) = number := by omega
    have decimal : signedValue ('-' :: Nat.toDigits 10 (-number).toNat) =
        some (-((-number).toNat : Int)) := by
      rw [signedValue, digitsValue_toDigits]
      rfl
    exact decimal.trans (congrArg some value)

/-- The values of an `i64`. -/
def InI64 (number : Int) : Prop := -2 ^ 63 ≤ number ∧ number < 2 ^ 63

/-- An integer within 64 bits is read back from its text. -/
theorem parseI64_repr {number : Int} (fits : InI64 number) :
    parseI64 number.repr = some number := by
  have value : parseI64 number.repr = (signedValue number.repr.toList).filter
      fun value => -2 ^ 63 ≤ value ∧ value < 2 ^ 63 := rfl
  rw [value, signedValue_repr, Option.filter_some, if_pos (by simpa [InI64] using fits)]

/-- Two numbers are written the same only if they are. -/
theorem repr_injective : Function.Injective Int.repr := fun first second same =>
  Option.some.inj ((signedValue_repr first).symm.trans (same ▸ signedValue_repr second))

/-- What a number is written with. -/
def isReprChar (c : Char) : Bool := c.isDigit || c == '-'

/-- An integer's text is made of digits and the sign. -/
theorem isReprChar_of_mem_repr {number : Int} {c : Char} (member : c ∈ number.repr.toList) :
    isReprChar c := by
  cases digit : c.isDigit with
  | true => rw [isReprChar, digit, Bool.true_or]
  | false =>
    by_contra other
    exact notMem_repr digit (by simpa [isReprChar, digit] using other) number member

/-- A number ends where something else stands. -/
theorem repr_append_inj {left right : Int} {rest more : List Char}
    (stops : ∀ c ∈ rest.head?, isReprChar c = false)
    (moreStops : ∀ c ∈ more.head?, isReprChar c = false)
    (same : left.repr.toList ++ rest = right.repr.toList ++ more) : left = right ∧ rest = more := by
  obtain ⟨words, tails⟩ := run_append_inj (fun _ => isReprChar_of_mem_repr)
    (fun _ => isReprChar_of_mem_repr) stops moreStops same
  exact ⟨repr_injective (String.toList_injective words), tails⟩

/-- The first slash behind a number is the one that follows it. -/
theorem span_repr (number : Int) {rest : List Char} (starts : rest = [] ∨ rest.head? = some '/') :
    (number.repr.toList ++ rest).span (· ≠ '/') = (number.repr.toList, rest) := by
  have digits : ∀ c ∈ number.repr.toList, decide (c ≠ '/') = true := fun c listed =>
    decide_eq_true fun eq => slash_notMem_repr number (eq ▸ listed)
  rw [List.span_eq_takeWhile_dropWhile, List.takeWhile_append_of_pos digits,
    List.dropWhile_append_of_pos digits]
  rcases rest with _ | ⟨c, rest⟩
  · simp
  · simp at starts
    simp [starts]

end Foghorn.Core
