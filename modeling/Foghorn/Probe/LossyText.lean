import Foghorn.Probe.Nest
import Foghorn.Std.Text

/-!
# Texts survive a lossy decoding

The lossy decoder puts a replacement character for what is not UTF-8. In the bytes of a text
there is no such part: behind every first byte stand as many bytes as it announces, within the
bounds that leave out surrogates and forms longer than needed.
-/

namespace Foghorn.Probe

open Foghorn.Std

variable {c : Char}

private theorem continuationBounds_one {first : UInt8} (high : first.toNat < 0x80) :
    continuationBounds first = some [] := by
  rw [continuationBounds, if_pos (UInt8.lt_iff_toNat_lt.mpr high)]

private theorem continuationBounds_two {first : UInt8} (low : 0xc2 ≤ first.toNat)
    (high : first.toNat < 0xe0) : continuationBounds first = some [(0x80, 0xbf)] := by
  simp only [continuationBounds, UInt8.lt_iff_toNat_lt, UInt8.reduceToNat]
  rw [if_neg (by omega), if_neg (by omega), if_pos (by omega)]

private theorem continuationBounds_three {first : UInt8} (low : 0xe0 ≤ first.toNat)
    (high : first.toNat < 0xf0) : continuationBounds first =
      some [(if first = 0xe0 then 0xa0 else 0x80, if first = 0xed then 0x9f else 0xbf),
        (0x80, 0xbf)] := by
  simp only [continuationBounds, UInt8.lt_iff_toNat_lt, UInt8.reduceToNat]
  rw [if_neg (by omega), if_neg (by omega), if_neg (by omega), if_pos (by omega)]

private theorem continuationBounds_four {first : UInt8} (low : 0xf0 ≤ first.toNat)
    (high : first.toNat < 0xf5) : continuationBounds first =
      some [(if first = 0xf0 then 0x90 else 0x80, if first = 0xf4 then 0x8f else 0xbf),
        (0x80, 0xbf), (0x80, 0xbf)] := by
  simp only [continuationBounds, UInt8.lt_iff_toNat_lt, UInt8.reduceToNat]
  rw [if_neg (by omega), if_neg (by omega), if_neg (by omega), if_neg (by omega), if_pos (by omega)]

/-- The bytes of a character, as the decoder walks over them. -/
structure Sequence (c : Char) (first : UInt8) (continuation : List UInt8) : Prop where
  encoded : String.utf8EncodeChar c = first :: continuation
  taken : ∃ bounds, continuationBounds first = some bounds ∧ continuation.length = bounds.length ∧
    ∀ rest, takeContinuation bounds (continuation ++ rest) = continuation
  read : charOf first continuation = c

/-- A byte below 256, as a number. -/
theorem toNat_byte {number : Nat} (small : number < 256) : (UInt8.ofNat number).toNat = number := by
  rw [UInt8.toNat_ofNat', Nat.mod_eq_of_lt small]

/-- A byte that goes on a character carries six bits. -/
def laterByte (number : Nat) : UInt8 := UInt8.ofNat (number % 0x40 + 0x80)

private theorem toNat_laterByte (number : Nat) : (laterByte number).toNat = number % 0x40 + 0x80 :=
  toNat_byte (by omega)

/-- A mask of low bits takes the remainder. -/
theorem toNat_and_mask (byte mask : UInt8) (width : Nat) (low : mask.toNat = 2 ^ width - 1) :
    (byte &&& mask).toNat = byte.toNat % 2 ^ width := by
  rw [UInt8.toNat_and, low, Nat.and_two_pow_sub_one_eq_mod]

private theorem laterByte_bits (number : Nat) :
    (laterByte number &&& 0x3f).toNat = number % 0x40 := by
  rw [toNat_and_mask _ _ 6 rfl, toNat_laterByte]
  omega

/-- The first byte of a character narrows the bounds of the second at both ends. -/
theorem takeContinuation_laterByte {number : Nat} {narrowLow narrowHigh : Prop} [Decidable narrowLow]
    [Decidable narrowHigh] {low high : UInt8} {bounds : List (UInt8 × UInt8)} {bytes : List UInt8}
    (above : narrowLow → low.toNat ≤ number % 0x40 + 0x80)
    (below : narrowHigh → number % 0x40 + 0x80 ≤ high.toNat) :
    takeContinuation ((if narrowLow then low else 0x80, if narrowHigh then high else 0xbf) :: bounds)
      (laterByte number :: bytes) = laterByte number :: takeContinuation bounds bytes := by
  have plainLow : (0x80 : UInt8).toNat = 128 := rfl
  have plainHigh : (0xbf : UInt8).toNat = 191 := rfl
  rw [takeContinuation, if_pos]
  rw [UInt8.le_iff_toNat_le, UInt8.le_iff_toNat_le, toNat_laterByte]
  constructor
  · split
    · exact above ‹_›
    · omega
  · split
    · exact below ‹_›
    · omega

private theorem takeContinuation_plain (number : Nat) (bounds : List (UInt8 × UInt8))
    (bytes : List UInt8) :
    takeContinuation ((0x80, 0xbf) :: bounds) (laterByte number :: bytes) =
      laterByte number :: takeContinuation bounds bytes :=
  @takeContinuation_laterByte number False False _ _ 0 0 bounds bytes False.elim False.elim

private theorem takeContinuation_nil (bytes : List UInt8) : takeContinuation [] bytes = [] := by
  simp [takeContinuation]

private theorem charOf_two {first : UInt8} {code : Nat} (lead : first.toNat % 2 ^ 5 = code / 64) :
    charOf first [laterByte code] = Char.ofNat code := by
  have whole : code / 64 * 64 + code % 64 = code := by omega
  simp only [charOf, List.length_singleton, List.foldl_cons, List.foldl_nil,
    toNat_and_mask first 0x1f 5 rfl, lead, laterByte_bits, whole]

private theorem charOf_three {first : UInt8} {code : Nat}
    (lead : first.toNat % 2 ^ 4 = code / 4096) :
    charOf first [laterByte (code / 64), laterByte code] = Char.ofNat code := by
  have whole : (code / 4096 * 64 + code / 64 % 64) * 64 + code % 64 = code := by omega
  simp only [charOf, List.length_cons, List.length_nil, List.foldl_cons, List.foldl_nil,
    toNat_and_mask first 0x0f 4 rfl, lead, laterByte_bits, whole]

private theorem charOf_four {first : UInt8} {code : Nat}
    (lead : first.toNat % 2 ^ 3 = code / 262144) :
    charOf first [laterByte (code / 4096), laterByte (code / 64), laterByte code] = Char.ofNat code := by
  have whole : ((code / 262144 * 64 + code / 4096 % 64) * 64 + code / 64 % 64) * 64 + code % 64 = code := by
    omega
  simp only [charOf, List.length_cons, List.length_nil, List.foldl_cons, List.foldl_nil,
    toNat_and_mask first 0x07 3 rfl, lead, laterByte_bits, whole]

private theorem sequence_one (small : c.val.toNat ≤ 0x7f) :
    Sequence c (UInt8.ofNat c.val.toNat) [] where
  encoded := by simp only [String.utf8EncodeChar, small, if_true]
  taken := by
    have first := @toNat_byte c.val.toNat (by omega)
    exact ⟨[], continuationBounds_one (by omega), rfl, takeContinuation_nil⟩
  read := by
    have first := @toNat_byte c.val.toNat (by omega)
    simp only [charOf, List.length_nil, List.foldl_nil, first]
    exact Char.ofNat_toNat c

private theorem sequence_two (large : ¬ c.val.toNat ≤ 0x7f) (small : c.val.toNat ≤ 0x7ff) :
    Sequence c (UInt8.ofNat (c.val.toNat / 64 % 0x20 + 0xc0)) [laterByte c.val.toNat] where
  encoded := by
    simp only [String.utf8EncodeChar, small, large, if_true, if_false]
    rfl
  taken := by
    have first := @toNat_byte (c.val.toNat / 64 % 0x20 + 0xc0) (by omega)
    refine ⟨_, continuationBounds_two (by omega) (by omega), rfl, fun rest => ?_⟩
    rw [List.singleton_append, takeContinuation_plain, takeContinuation_nil]
  read := by
    have first := @toNat_byte (c.val.toNat / 64 % 0x20 + 0xc0) (by omega)
    exact (charOf_two (by omega)).trans (Char.ofNat_toNat c)

private theorem sequence_three (large : ¬ c.val.toNat ≤ 0x7ff) (small : c.val.toNat ≤ 0xffff) :
    Sequence c (UInt8.ofNat (c.val.toNat / 4096 % 0x10 + 0xe0))
      [laterByte (c.val.toNat / 64), laterByte c.val.toNat] where
  encoded := by
    have larger : ¬ c.val.toNat ≤ 0x7f := by omega
    simp only [String.utf8EncodeChar, small, large, larger, if_true, if_false]
    rfl
  taken := by
    have first := @toNat_byte (c.val.toNat / 4096 % 0x10 + 0xe0) (by omega)
    refine ⟨_, continuationBounds_three (by omega) (by omega), rfl, fun rest => ?_⟩
    rw [List.cons_append, List.singleton_append, takeContinuation_laterByte, takeContinuation_plain,
      takeContinuation_nil]
    · intro lowest
      -- No shorter form: the code is at least 0x800.
      rw [lowest] at first
      simp only [UInt8.reduceToNat] at first ⊢
      omega
    · intro highest
      -- No surrogate: the code is not in 0xd800..0xdfff.
      have valid := c.valid
      simp only [UInt32.isValidChar, Nat.isValidChar] at valid
      rw [highest] at first
      simp only [UInt8.reduceToNat] at first ⊢
      omega
  read := by
    have first := @toNat_byte (c.val.toNat / 4096 % 0x10 + 0xe0) (by omega)
    exact (charOf_three (by omega)).trans (Char.ofNat_toNat c)

private theorem sequence_four (large : ¬ c.val.toNat ≤ 0xffff) :
    Sequence c (UInt8.ofNat (c.val.toNat / 262144 % 0x08 + 0xf0))
      [laterByte (c.val.toNat / 4096), laterByte (c.val.toNat / 64), laterByte c.val.toNat] where
  encoded := by
    have larger : ¬ c.val.toNat ≤ 0x7ff := by omega
    have largest : ¬ c.val.toNat ≤ 0x7f := by omega
    simp only [String.utf8EncodeChar, large, larger, largest, if_false]
    rfl
  taken := by
    have valid := c.valid
    simp only [UInt32.isValidChar, Nat.isValidChar] at valid
    have first := @toNat_byte (c.val.toNat / 262144 % 0x08 + 0xf0) (by omega)
    refine ⟨_, continuationBounds_four (by omega) (by omega), rfl, fun rest => ?_⟩
    rw [List.cons_append, List.cons_append, List.singleton_append, takeContinuation_laterByte,
      takeContinuation_plain, takeContinuation_plain, takeContinuation_nil]
    · intro lowest
      rw [lowest] at first
      simp only [UInt8.reduceToNat] at first ⊢
      omega
    · intro highest
      rw [highest] at first
      simp only [UInt8.reduceToNat] at first ⊢
      omega
  read := by
    have valid := c.valid
    simp only [UInt32.isValidChar, Nat.isValidChar] at valid
    have first := @toNat_byte (c.val.toNat / 262144 % 0x08 + 0xf0) (by omega)
    exact (charOf_four (by omega)).trans (Char.ofNat_toNat c)

/-- Every character has its UTF-8 sequence. -/
theorem exists_sequence (c : Char) : ∃ first continuation, Sequence c first continuation := by
  by_cases one : c.val.toNat ≤ 0x7f
  · exact ⟨_, _, sequence_one one⟩
  · by_cases two : c.val.toNat ≤ 0x7ff
    · exact ⟨_, _, sequence_two one two⟩
    · by_cases three : c.val.toNat ≤ 0xffff
      · exact ⟨_, _, sequence_three two three⟩
      · exact ⟨_, _, sequence_four three⟩

/-- A text decodes to itself. -/
theorem utf8Lossy_utf8Bytes {fuel : Nat} {chars : List Char}
    (enough : (utf8Bytes chars).length ≤ fuel) : utf8Lossy fuel (utf8Bytes chars) = chars := by
  induction chars generalizing fuel with
  | nil => cases fuel <;> rfl
  | cons c rest ih =>
    obtain ⟨first, continuation, walked⟩ := exists_sequence c
    obtain ⟨bounds, read, lengths, taken⟩ := walked.taken
    rw [utf8Bytes_cons, walked.encoded, List.cons_append] at enough ⊢
    cases fuel with
    | zero => simp at enough
    | succ fuel =>
      rw [List.length_cons, List.length_append] at enough
      have onward := @ih fuel (by omega)
      rw [utf8Lossy, read]
      simp only [taken, lengths, if_true, walked.read]
      rw [← lengths, List.drop_left, onward]

end Foghorn.Probe
