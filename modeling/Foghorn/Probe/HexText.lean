import Foghorn.Core.Deployment
import Foghorn.Std.IpText

/-!
# How hex texts are spelled

One value has many texts: the marker may be missing or repeated, and each letter may have
either case. Two texts that decode stand for one value exactly when their digits agree in
lower case.
-/

namespace Foghorn.Probe

open Foghorn.Core Foghorn.Std

/-- The digit of a nibble, as `hex::encode` writes it. -/
def nibbleDigit (nibble : UInt8) : Char :=
  if nibble < 10 then Char.ofNat ('0'.toNat + nibble.toNat)
  else Char.ofNat ('a'.toNat + nibble.toNat - 10)

/-- A hex digit is ASCII. -/
theorem ascii_of_hexDigit {digit : Char} {nibble : UInt8} (read : hexDigit digit = some nibble) :
    digit.toNat < 128 := by
  have bounded (last : Char) (ascii : last.toNat < 128) (le : digit ≤ last) : digit.toNat < 128 :=
    (UInt32.le_iff_toNat_le.mp (Char.le_def.mp le)).trans_lt ascii
  unfold hexDigit at read
  split at read
  · rename_i range
    exact bounded '9' (by decide) range.2
  · split at read
    · rename_i range
      exact bounded 'f' (by decide) range.2
    · split at read
      · rename_i range
        exact bounded 'F' (by decide) range.2
      · cases read

/-- What a digit is in lower case depends on its value only, and does not change it. -/
theorem lower_hexDigit {digit : Char} {nibble : UInt8} (read : hexDigit digit = some nibble) :
    digit.toLower = nibbleDigit nibble ∧ hexDigit digit.toLower = some nibble ∧ nibble < 16 := by
  have table : ∀ code < 128, ∀ nibble ∈ hexDigit (Char.ofNat code),
      (Char.ofNat code).toLower = nibbleDigit nibble ∧
        hexDigit (Char.ofNat code).toLower = some nibble ∧ nibble < 16 := by
    decide +kernel
  have found := table digit.toNat (ascii_of_hexDigit read) nibble
  rw [Char.ofNat_toNat] at found
  exact found read

/-- The nibbles of a byte that was put together from two. -/
theorem nibbles_of_byte {high low : UInt8} (highBound : high < 16) (lowBound : low < 16) :
    (high <<< 4 ||| low) >>> 4 = high ∧ (high <<< 4 ||| low) &&& 15 = low := by
  have table : ∀ high < 16, ∀ low < 16,
      (UInt8.ofNat high <<< 4 ||| UInt8.ofNat low) >>> 4 = UInt8.ofNat high ∧
        (UInt8.ofNat high <<< 4 ||| UInt8.ofNat low) &&& 15 = UInt8.ofNat low := by
    decide
  have found := table high.toNat (UInt8.lt_iff_toNat_lt.mp highBound) low.toNat
    (UInt8.lt_iff_toNat_lt.mp lowBound)
  rwa [UInt8.ofNat_toNat, UInt8.ofNat_toNat] at found

/-- Two digits decode to one byte, and the rest after it. -/
theorem hexDecode_cons_cons {high low : Char} {rest : List Char} {bytes : List UInt8} :
    hexDecode (high :: low :: rest) = some bytes ↔ ∃ left right tail,
      hexDigit high = some left ∧ hexDigit low = some right ∧ hexDecode rest = some tail ∧
        bytes = (left <<< 4 ||| right) :: tail := by
  simp only [hexDecode, Option.bind_eq_bind, Option.bind_eq_some_iff, Option.some.injEq]
  constructor
  · rintro ⟨left, readHigh, right, readLow, tail, decoded, rfl⟩
    exact ⟨left, right, tail, readHigh, readLow, decoded, rfl⟩
  · rintro ⟨left, right, tail, readHigh, readLow, decoded, rfl⟩
    exact ⟨left, readHigh, right, readLow, tail, decoded, rfl⟩

/-- In lower case the digits of a text are the encoding of its bytes. -/
theorem lower_of_hexDecode {digits : List Char} {bytes : List UInt8}
    (decoded : hexDecode digits = some bytes) :
    digits.map Char.toLower =
      bytes.flatMap fun (byte : UInt8) => [nibbleDigit (byte >>> 4), nibbleDigit (byte &&& 15)] := by
  induction digits using hexDecode.induct generalizing bytes with
  | case1 =>
    obtain rfl := Option.some.inj decoded
    rfl
  | case2 high low rest ih =>
    obtain ⟨left, right, tail, readHigh, readLow, decodedRest, rfl⟩ := hexDecode_cons_cons.mp decoded
    obtain ⟨lowerHigh, _, highBound⟩ := lower_hexDigit readHigh
    obtain ⟨lowerLow, _, lowBound⟩ := lower_hexDigit readLow
    obtain ⟨first, second⟩ := nibbles_of_byte highBound lowBound
    rw [List.map_cons, List.map_cons, ih decodedRest, lowerHigh, lowerLow, List.flatMap_cons, first,
      second]
    rfl
  | case3 single => cases decoded

/-- Every byte is encoded as two digits. -/
theorem toList_hexEncode (bytes : List UInt8) : (hexEncode bytes).toList =
    bytes.flatMap fun (byte : UInt8) => [nibbleDigit (byte >>> 4), nibbleDigit (byte &&& 15)] :=
  String.toList_ofList

/-- What is encoded is read back. -/
theorem hexDecode_hexEncode (bytes : List UInt8) : hexDecode (hexEncode bytes).toList = some bytes := by
  have table : ∀ code < 256, let byte := UInt8.ofNat code
      hexDigit (nibbleDigit (byte >>> 4)) = some (byte >>> 4) ∧
        hexDigit (nibbleDigit (byte &&& 15)) = some (byte &&& 15) ∧
          byte = (byte >>> 4) <<< 4 ||| (byte &&& 15) := by
    decide +kernel
  rw [toList_hexEncode]
  induction bytes with
  | nil => rfl
  | cons byte rest ih =>
    have found := table byte.toNat byte.toNat_lt
    rw [UInt8.ofNat_toNat] at found
    obtain ⟨high, low, whole⟩ := found
    exact hexDecode_cons_cons.mpr ⟨byte >>> 4, byte &&& 15, rest, high, low, ih, by rw [← whole]⟩

/-- The hex of some bytes behind a marker. -/
def markedHex (bytes : List UInt8) : String := "0x" ++ hexEncode bytes

/-- What is encoded with a marker is decoded behind it. -/
theorem hexDecode_markedHex (bytes : List UInt8) :
    hexDecode (stripHexMarker (markedHex bytes).toList) = some bytes := by
  rw [markedHex, String.toList_append]
  exact hexDecode_hexEncode bytes

/-- Decoding takes two digits for each byte. -/
theorem length_hexDecode {digits : List Char} {bytes : List UInt8}
    (decoded : hexDecode digits = some bytes) : digits.length = 2 * bytes.length := by
  induction digits using hexDecode.induct generalizing bytes with
  | case1 =>
    obtain rfl := Option.some.inj decoded
    rfl
  | case2 high low rest ih =>
    obtain ⟨_, _, tail, _, _, decodedRest, rfl⟩ := hexDecode_cons_cons.mp decoded
    have length := ih decodedRest
    rw [List.length_cons, List.length_cons, List.length_cons]
    omega
  | case3 single => cases decoded

/-- Whatever decodes is made of hex digits. -/
theorem exists_hexDigit_of_mem {digits : List Char} {bytes : List UInt8}
    (decoded : hexDecode digits = some bytes) {c : Char} (member : c ∈ digits) :
    ∃ nibble, hexDigit c = some nibble := by
  induction digits using hexDecode.induct generalizing bytes with
  | case1 => cases member
  | case2 high low rest ih =>
    obtain ⟨left, right, tail, readHigh, readLow, decodedRest, _⟩ := hexDecode_cons_cons.mp decoded
    rcases List.mem_cons.mp member with rfl | inside
    · exact ⟨left, readHigh⟩
    · rcases List.mem_cons.mp inside with rfl | later
      · exact ⟨right, readLow⟩
      · exact ih decodedRest later
  | case3 single => cases decoded

private theorem hexDigit_toLower (c : Char) : hexDigit c.toLower = hexDigit c :=
  apply_toLower (by decide) c

/-- Lower case does not change what a text decodes to. -/
theorem hexDecode_toLower (digits : List Char) :
    hexDecode (digits.map Char.toLower) = hexDecode digits := by
  induction digits using hexDecode.induct with
  | case1 => rfl
  | case2 high low rest ih =>
    simp only [List.map_cons, hexDecode, hexDigit_toLower, ih]
  | case3 single => rfl

/-- The bytes that a text stands for. -/
def cidBytes (text : String) : Option (List UInt8) := hexDecode (trimHexMarker text.toList)

/-- The digits of a text without markers and letter case. -/
def plainDigits (text : String) : List Char := (trimHexMarker text.toList).map Char.toLower

/-- Two texts of values are texts of one value exactly when their plain digits agree. -/
theorem plainDigits_eq_iff {left right : String} {leftBytes rightBytes : List UInt8}
    (leftDecoded : cidBytes left = some leftBytes) (rightDecoded : cidBytes right = some rightBytes) :
    plainDigits left = plainDigits right ↔ leftBytes = rightBytes := by
  constructor
  · intro same
    have lowered := (hexDecode_toLower _).trans leftDecoded
    have other := (hexDecode_toLower _).trans rightDecoded
    rw [plainDigits, plainDigits] at same
    rw [same, other] at lowered
    exact (Option.some.inj lowered).symm
  · rintro rfl
    exact (lower_of_hexDecode leftDecoded).trans (lower_of_hexDecode rightDecoded).symm

section Repeated

/-- A text of 64 times one digit, after the marker. -/
def hex64 (digit : Char) : String := "0x" ++ String.ofList (List.replicate 64 digit)

/-- A digit other than the one a marker begins with. -/
structure PlainDigit (digit : Char) (nibble : UInt8) : Prop where
  read : hexDigit digit = some nibble
  marked : digit ≠ '0'

variable {digit : Char} {nibble : UInt8}

/-- An even number of one digit decodes to copies of one byte. -/
theorem hexDecode_replicate (read : hexDigit digit = some nibble) (count : Nat) :
    hexDecode (List.replicate (2 * count) digit) =
      some (List.replicate count (nibble <<< 4 ||| nibble)) := by
  induction count with
  | zero => rfl
  | succ count ih =>
    rw [Nat.mul_succ, List.replicate_succ, List.replicate_succ]
    exact hexDecode_cons_cons.mpr ⟨nibble, nibble, _, read, read, ih, rfl⟩

private theorem PlainDigit.digits_hex64 (plain : PlainDigit digit nibble) :
    trimHexMarker (hex64 digit).toList = List.replicate 64 digit := by
  have shape : (hex64 digit).toList = '0' :: 'x' :: List.replicate 64 digit := by
    rw [hex64, String.toList_append, String.toList_ofList]
    simp
  rw [shape, trimHexMarker, trimHexMarker]
  intro rest same
  exact plain.marked (List.cons.inj same).1

/-- Sixty-four equal digits spell thirty-two equal bytes. -/
theorem PlainDigit.cidBytes_hex64 (plain : PlainDigit digit nibble) :
    cidBytes (hex64 digit) = some (List.replicate 32 (nibble <<< 4 ||| nibble)) := by
  rw [cidBytes, plain.digits_hex64]
  exact hexDecode_replicate plain.read 32

/-- Behind its marker the sample word is 64 bytes long. -/
theorem PlainDigit.byteLength_hex64 (plain : PlainDigit digit nibble) :
    byteLength (trimHexMarker (hex64 digit).toList) = 64 := by
  have ascii : digit.utf8Size = 1 :=
    Char.utf8Size_eq_one_iff.mpr (UInt32.le_iff_toNat_le.mpr
      (Nat.le_of_lt_succ (ascii_of_hexDigit plain.read)))
  rw [plain.digits_hex64, byteLength, List.map_replicate, ascii]
  rfl

end Repeated

end Foghorn.Probe
