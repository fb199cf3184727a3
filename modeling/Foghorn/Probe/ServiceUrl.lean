import Foghorn.Probe.HexText
import Foghorn.Probe.LossyText
import Foghorn.Std.AbiWords

/-!
# The service URL of a registration

A registration is the ABI encoding of a URL, a geohash and what else the operator gives. The
decoder follows the offset in the first word. Two of its three additions are checked; the
third, on the offset itself, goes over the range of an index for offsets at its very end.
-/

namespace Foghorn.Probe

open Foghorn.Core Foghorn.Std

/-- What stops a build that checks its arithmetic. -/
inductive Fault where
  /-- An addition of indices past `usize::MAX`. -/
  | overflow
  /-- A range that is not within the slice. -/
  | range
  /-- A copy between slices of different lengths. -/
  | lengths
deriving DecidableEq

/-- `left + right` on `usize`. -/
def usizeAdd (left right : Nat) : Except Fault Nat :=
  if left + right < 2 ^ 64 then .ok (left + right) else .error .overflow

/-- `bytes[start..stop]`. -/
def indexRange (bytes : List UInt8) (start stop : Nat) : Except Fault (List UInt8) :=
  match slice bytes start stop with
  | some part => .ok part
  | none => .error .range

/-- `copy_from_slice` into a buffer. -/
def copyFromSlice (length : Nat) (bytes : List UInt8) : Except Fault (List UInt8) :=
  if bytes.length = length then .ok bytes else .error .lengths

/-- `word`, with what it can stop at. -/
def runWord (bytes : List UInt8) (offset : Nat) : Except Fault (Option Nat) := do
  let stop ← usizeAdd offset 32
  match slice bytes offset stop with
  | none => .ok none
  | some word =>
    let high ← indexRange word 0 24
    if high.any fun byte => byte ≠ 0 then .ok none
    else
      let low ← indexRange word 24 32
      let buf ← copyFromSlice 8 low
      .ok (some (beValue buf))

/-- `decode_service_url`, with what it can stop at. -/
def runDecodeServiceUrl (dataHex : String) : Except Fault (Option String) :=
  match hexDecode (stripHexMarker dataHex.toList) with
  | none => .ok none
  | some bytes => do
    match ← runWord bytes 0 with
    | none => .ok none
    | some urlOff =>
      match ← runWord bytes urlOff with
      | none => .ok none
      | some urlLen =>
        match checkedAdd urlOff 32 with
        | none => .ok none
        | some start =>
          match checkedAdd start urlLen with
          | none => .ok none
          | some stop =>
            match slice bytes start stop with
            | none => .ok none
            | some raw =>
              .ok (some (String.ofList (trimText (String.ofList (utf8Lossy raw.length raw)))))

/-- A payload whose first word is an offset less than 32 below the end of the index range. -/
def OffsetAtEnd (dataHex : String) : Prop :=
  ∃ (last : UInt8) (rest : List UInt8), 0xe0 ≤ last ∧
    hexDecode (stripHexMarker dataHex.toList) =
      some (List.replicate 24 0 ++ (List.replicate 7 0xff ++ last :: rest))

section Words

variable {bytes before after word : List UInt8} {start stop offset : Nat}

private theorem slice_eq_some (within : slice bytes start stop = some word) :
    start ≤ stop ∧ stop ≤ bytes.length ∧ word = (bytes.drop start).take (stop - start) := by
  rw [slice] at within
  split at within
  · rename_i bounds
    exact ⟨bounds.1, bounds.2, (Option.some.inj within).symm⟩
  · cases within

private theorem length_slice (within : slice bytes start stop = some word) :
    word.length = stop - start := by
  obtain ⟨ordered, bounded, rfl⟩ := slice_eq_some within
  rw [List.length_take, List.length_drop]
  omega

/-- The part that stands between two others. -/
theorem slice_middle : slice (before ++ (word ++ after)) before.length (before.length + word.length) =
    some word := by
  rw [slice, if_pos ⟨Nat.le_add_right _ _, by simp⟩, List.drop_left, Nat.add_sub_cancel_left,
    List.take_left]

private theorem indexRange_of_le (ordered : start ≤ stop) (bounded : stop ≤ bytes.length) :
    indexRange bytes start stop = .ok ((bytes.drop start).take (stop - start)) := by
  rw [indexRange, slice, if_pos ⟨ordered, bounded⟩]

/-- Reading a word stops at nothing but the addition. -/
theorem runWord_eq (fits : offset + 32 < 2 ^ 64) : runWord bytes offset = .ok (wordAt bytes offset) := by
  rw [runWord, usizeAdd, if_pos fits, wordAt]
  cases found : slice bytes offset (offset + 32) with
  | none => simp [found, bind, Except.bind]
  | some word =>
    have length : word.length = 32 := by
      rw [length_slice found]
      omega
    have low : (word.drop 24).length = 8 := by rw [List.length_drop, length]
    have whole : (word.drop 24).take (32 - 24) = word.drop 24 :=
      List.take_of_length_le low.le
    simp only [bind, Except.bind, found, Option.bind]
    rw [indexRange_of_le (Nat.zero_le 24) (by omega), indexRange_of_le (by decide) (by omega)]
    simp only [copyFromSlice, low, whole, List.drop_zero, Nat.sub_zero, if_true]
    split
    · rfl
    · rfl

private theorem runWord_overflow (past : ¬ offset + 32 < 2 ^ 64) :
    runWord bytes offset = .error .overflow := by
  rw [runWord, usizeAdd, if_neg past]
  rfl

/-- A word as its zero bytes and the number in its last eight. -/
theorem wordAt_eq_some {number : Nat} (read : wordAt bytes offset = some number) :
    ∃ low : List UInt8, low.length = 8 ∧ beValue low = number ∧
      slice bytes offset (offset + 32) = some (List.replicate 24 0 ++ low) := by
  rw [wordAt, Option.bind_eq_bind, Option.bind_eq_some_iff] at read
  obtain ⟨word, found, value⟩ := read
  have length : word.length = 32 := by
    rw [length_slice found]
    omega
  split at value
  · cases value
  · rename_i zeros
    have high : word.take 24 = List.replicate 24 0 := by
      refine List.eq_replicate_iff.mpr ⟨by rw [List.length_take, length]; rfl, fun byte member => ?_⟩
      by_contra other
      exact zeros (List.any_eq_true.mpr ⟨byte, member, decide_eq_true other⟩)
    refine ⟨word.drop 24, by rw [List.length_drop, length], Option.some.inj value, ?_⟩
    rw [found, ← high, List.take_append_drop]

/-- A word is read as the number of its low eight bytes when the others are zero. -/
theorem wordAt_low {low : List UInt8} (length : low.length = 8) :
    wordAt (before ++ ((List.replicate 24 0 ++ low) ++ after)) before.length = some (beValue low) := by
  have found := @slice_middle before after (List.replicate 24 0 ++ low)
  rw [List.length_append, List.length_replicate, length] at found
  have zeros : (List.replicate 24 (0 : UInt8)).any (fun byte => byte ≠ 0) = false := by decide
  rw [wordAt, found, Option.bind_eq_bind, Option.bind_some, List.take_left' List.length_replicate,
    List.drop_left' List.length_replicate, zeros]
  rfl

/-- A word that was encoded is read back. -/
theorem wordAt_abiWord {number : Nat} (fits : number < 2 ^ 64) :
    wordAt (before ++ (abiWord number ++ after)) before.length = some number := by
  have shape : abiWord number = List.replicate 24 0 ++ beBytes 8 number := by
    have quotient : number / 256 ^ 8 = 0 := Nat.div_eq_of_lt fits
    rw [abiWord, ← beBytes_zero, ← quotient]
    exact beBytes_add 24 8 number
  rw [shape, wordAt_low (length_beBytes 8 number), beValue_beBytes fits]

end Words

section Faults

variable {dataHex : String}

/-- The eight bytes of a number at the end of the index range. -/
theorem beValue_at_end_iff {low : List UInt8} (length : low.length = 8) :
    ¬ beValue low + 32 < 2 ^ 64 ↔ ∃ last : UInt8, 0xe0 ≤ last ∧ low = List.replicate 7 0xff ++ [last] := by
  rcases List.eq_nil_or_concat low with rfl | ⟨front, last, rfl⟩
  · cases length
  · rw [List.concat_eq_append] at length ⊢
    rw [List.length_append, List.length_singleton] at length
    have seven : front.length = 7 := Nat.succ.inj length
    have largest := @beValue_add_one_eq_iff front
    have bound := beValue_lt front
    have byte := last.toNat_lt
    rw [seven] at largest bound
    have final : 0xe0 ≤ last ↔ 224 ≤ last.toNat := UInt8.le_iff_toNat_le
    rw [beValue_concat]
    constructor
    · intro past
      exact ⟨last, final.mpr (by omega), congrArg (· ++ [last]) (largest.mp (by omega))⟩
    · rintro ⟨other, above, same⟩
      obtain ⟨fronts, lasts⟩ := List.append_inj' same rfl
      obtain rfl := (List.cons.inj lasts).1
      have full := largest.mpr fronts
      have least := final.mp above
      omega

private theorem offsetAtEnd_iff : OffsetAtEnd dataHex ↔ ∃ bytes offset,
    hexDecode (stripHexMarker dataHex.toList) = some bytes ∧ wordAt bytes 0 = some offset ∧
      ¬ offset + 32 < 2 ^ 64 := by
  constructor
  · rintro ⟨last, rest, above, decoded⟩
    have length : (List.replicate 7 (0xff : UInt8) ++ [last]).length = 8 := rfl
    have first := @wordAt_low [] rest _ length
    refine ⟨_, _, decoded, ?_, (beValue_at_end_iff length).mpr ⟨last, above, rfl⟩⟩
    rw [← first]
    simp
  · rintro ⟨bytes, offset, decoded, first, past⟩
    obtain ⟨low, length, rfl, found⟩ := wordAt_eq_some first
    obtain ⟨last, above, rfl⟩ := (beValue_at_end_iff length).mp past
    obtain ⟨_, _, word⟩ := slice_eq_some found
    have whole : bytes.take 32 ++ bytes.drop 32 = bytes := List.take_append_drop 32 bytes
    refine ⟨last, bytes.drop 32, above, ?_⟩
    rw [List.drop_zero] at word
    rw [decoded, ← whole, ← word]
    simp

/-- Away from the end of the index range nothing stops the decoder. -/
theorem runDecodeServiceUrl_eq (sound : ¬ OffsetAtEnd dataHex) :
    runDecodeServiceUrl dataHex = .ok (decodeServiceUrl dataHex) := by
  rw [runDecodeServiceUrl, decodeServiceUrl]
  cases decoded : hexDecode (stripHexMarker dataHex.toList) with
  | none => rfl
  | some bytes =>
    simp only [@runWord_eq bytes 0 (by decide)]
    cases first : wordAt bytes 0 with
    | none => simp [first, bind, Except.bind]
    | some offset =>
      have fits : offset + 32 < 2 ^ 64 := by
        by_contra past
        exact sound (offsetAtEnd_iff.mpr ⟨bytes, offset, decoded, first, past⟩)
      simp only [first, bind, Except.bind, Option.bind, runWord_eq fits]
      cases wordAt bytes offset with
      | none => rfl
      | some length =>
        simp only
        cases checkedAdd offset 32 with
        | none => rfl
        | some start =>
          simp only
          cases checkedAdd start length with
          | none => rfl
          | some stop =>
            simp only
            cases slice bytes start stop <;> rfl

private theorem runDecodeServiceUrl_overflow (past : OffsetAtEnd dataHex) :
    runDecodeServiceUrl dataHex = .error .overflow := by
  obtain ⟨bytes, offset, decoded, first, beyond⟩ := offsetAtEnd_iff.mp past
  simp [runDecodeServiceUrl, decoded, bind, Except.bind, @runWord_eq bytes 0 (by decide), first,
    runWord_overflow beyond]

end Faults

section Registration

variable {dataHex url geohash : String} {rest : List AbiArg}

/-- The hex of a registration, with or without its marker. -/
def IsRegistration (dataHex url geohash : String) (rest : List AbiArg) : Prop :=
  hexDecode (stripHexMarker dataHex.toList) = some (abiEncode
    (abiString (utf8Bytes url.toList) :: abiString (utf8Bytes geohash.toList) :: rest))

private theorem length_le_byteLength (text : List Char) : text.length ≤ byteLength text := by
  induction text with
  | nil => exact Nat.le_refl 0
  | cons c rest ih =>
    have positive := c.utf8Size_pos
    rw [byteLength, List.map_cons, List.sum_cons, List.length_cons]
    rw [byteLength] at ih
    omega

private theorem length_stripHexMarker (digits : List Char) :
    (stripHexMarker digits).length ≤ digits.length := by
  unfold stripHexMarker
  split
  · rw [List.length_cons, List.length_cons]
    omega
  · exact Nat.le_refl _

/-- What a text in memory decodes to has indices. -/
theorem length_decoded {bytes : List UInt8} (held : byteLength dataHex.toList < 2 ^ 63)
    (decoded : hexDecode (stripHexMarker dataHex.toList) = some bytes) : bytes.length < 2 ^ 62 := by
  have digits := length_hexDecode decoded
  have stripped := length_stripHexMarker dataHex.toList
  have text := length_le_byteLength dataHex.toList
  omega

/-- The URL of an encoded registration, without the space around it. -/
theorem decodeServiceUrl_registration (held : byteLength dataHex.toList < 2 ^ 63)
    (registration : IsRegistration dataHex url geohash rest) :
    decodeServiceUrl dataHex = some (String.ofList (trimText url)) := by
  have bounded := length_decoded held registration
  have decoded := registration
  obtain ⟨heads, after, layout⟩ := abiEncode_abiString_cons (utf8Bytes url.toList)
    (abiString (utf8Bytes geohash.toList) :: rest)
  rw [layout] at bounded
  rw [IsRegistration, layout] at decoded
  simp only [List.length_append, length_abiWord] at bounded
  have headLength : (abiWord (32 + heads.length) ++ heads).length = 32 + heads.length := by
    rw [List.length_append, length_abiWord]
  -- The first word is the offset of the length word, and behind that the URL begins.
  have first := @wordAt_abiWord []
    (heads ++ (abiWord (utf8Bytes url.toList).length ++ (utf8Bytes url.toList ++ after)))
    (32 + heads.length) (by omega)
  have second := @wordAt_abiWord (abiWord (32 + heads.length) ++ heads) (utf8Bytes url.toList ++ after)
    (utf8Bytes url.toList).length (by omega)
  have part := @slice_middle
    (abiWord (32 + heads.length) ++ (heads ++ abiWord (utf8Bytes url.toList).length)) after
    (utf8Bytes url.toList)
  have front : (abiWord (32 + heads.length) ++
      (heads ++ abiWord (utf8Bytes url.toList).length)).length = 32 + heads.length + 32 := by
    rw [List.length_append, List.length_append, length_abiWord, length_abiWord, Nat.add_assoc]
  rw [List.nil_append, List.length_nil] at first
  rw [headLength, List.append_assoc] at second
  rw [front, List.append_assoc, List.append_assoc] at part
  rw [decodeServiceUrl, decoded]
  simp only [Option.bind_eq_bind, Option.bind_some, first, second]
  rw [checkedAdd, if_pos (by omega), Option.bind_some, checkedAdd, if_pos (by omega), Option.bind_some,
    part, Option.bind_some, utf8Lossy_utf8Bytes (Nat.le_refl _), String.ofList_toList]

/-- No registration has an offset at the end of the address space. -/
theorem not_offsetAtEnd_registration (held : byteLength dataHex.toList < 2 ^ 63)
    (registration : IsRegistration dataHex url geohash rest) : ¬ OffsetAtEnd dataHex := by
  intro past
  obtain ⟨bytes, offset, decoded, first, beyond⟩ := offsetAtEnd_iff.mp past
  have bounded := length_decoded held decoded
  have read := decodeServiceUrl_registration held registration
  rw [decodeServiceUrl, decoded] at read
  simp only [Option.bind_eq_bind, Option.bind_some, first] at read
  -- The length of the URL was read at the offset, so the offset is within the payload.
  obtain ⟨length, second, _⟩ := Option.bind_eq_some_iff.mp read
  obtain ⟨_, _, _, found⟩ := wordAt_eq_some second
  obtain ⟨_, within, _⟩ := slice_eq_some found
  omega

/-- The decoder undoes the encoding, and it stops at a fault for the offsets at the end of the
index range only. -/
theorem decode_service_url_safe_inverse (held : byteLength dataHex.toList < 2 ^ 63) :
    ((∃ result, runDecodeServiceUrl dataHex = .ok result) ↔ ¬ OffsetAtEnd dataHex) ∧
      ∀ (url geohash : String) (rest : List AbiArg), IsRegistration dataHex url geohash rest →
        runDecodeServiceUrl dataHex = .ok (some (String.ofList (trimText url))) := by
  constructor
  · constructor
    · rintro ⟨result, ended⟩ past
      rw [runDecodeServiceUrl_overflow past] at ended
      cases ended
    · intro sound
      exact ⟨_, runDecodeServiceUrl_eq sound⟩
  · intro url geohash rest registration
    rw [runDecodeServiceUrl_eq (not_offsetAtEnd_registration held registration),
      decodeServiceUrl_registration held registration]

private theorem byteLength_le (text : List Char) : byteLength text ≤ 4 * text.length := by
  induction text with
  | nil => exact Nat.le_refl 0
  | cons c rest ih =>
    have small := c.utf8Size_le_four
    rw [byteLength] at ih
    rw [byteLength, List.map_cons, List.sum_cons, List.length_cons]
    omega

private theorem byteLength_markedHex (bytes : List UInt8) :
    byteLength (markedHex bytes).toList ≤ 8 * (bytes.length + 1) := by
  have digits := length_hexDecode (hexDecode_hexEncode bytes)
  have bound := byteLength_le (markedHex bytes).toList
  have length : (markedHex bytes).toList.length = 2 + (hexEncode bytes).toList.length := by
    rw [markedHex, String.toList_append, List.length_append]
    rfl
  omega

/-- A registration with a space behind its URL. -/
def sampleRegistration : List UInt8 :=
  abiEncode [abiString (utf8Bytes "https://a.b ".toList), abiString (utf8Bytes "u09".toList),
    .static (abiWord 0)]

/-- The sample registration decodes to its URL without a fault. -/
theorem decode_service_url_safe_inverse_sample :
    ((∃ result, runDecodeServiceUrl (markedHex sampleRegistration) = .ok result) ↔
        ¬ OffsetAtEnd (markedHex sampleRegistration)) ∧
      ∀ (url geohash : String) (rest : List AbiArg),
        IsRegistration (markedHex sampleRegistration) url geohash rest →
          runDecodeServiceUrl (markedHex sampleRegistration) =
            .ok (some (String.ofList (trimText url))) := by
  have length : sampleRegistration.length < 2 ^ 32 := by decide +kernel
  have bound := byteLength_markedHex sampleRegistration
  exact decode_service_url_safe_inverse (by omega)

/-- One word, of an offset 32 below the end of the index range. -/
def endOffset : List UInt8 := List.replicate 24 0 ++ (List.replicate 7 0xff ++ [0xe0])

/-- An offset at the end of the address space stops the decoder in a checked build. -/
theorem endOffset_stops : ¬ ∀ dataHex : String, byteLength dataHex.toList < 2 ^ 63 →
    ∃ result, runDecodeServiceUrl dataHex = .ok result := by
  intro safe
  have bound := byteLength_markedHex endOffset
  have length : endOffset.length = 32 := rfl
  obtain ⟨result, ended⟩ := safe (markedHex endOffset) (by omega)
  have past : OffsetAtEnd (markedHex endOffset) :=
    ⟨0xe0, [], UInt8.le_refl 0xe0, hexDecode_markedHex endOffset⟩
  rw [runDecodeServiceUrl_overflow past] at ended
  cases ended

end Registration

end Foghorn.Probe
