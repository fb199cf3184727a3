import Mathlib.Data.Nat.Digits.Lemmas
import Foghorn.Core.Deployment
import Foghorn.Probe.HexText
import Foghorn.Std.AbiWords
import Foghorn.Std.Text

/-!
# One deployment, one id

The digest of a deployment is written in hex of either case, with or without a marker and with
space around it. All these texts have one id: the CIDv0 of the digest. It is a number in base 58,
and the prefix of the CID alone decides its length and its first two digits.
-/

namespace Foghorn.Core

open Foghorn.Probe Foghorn.Std

/-- A sha2-256 digest. -/
abbrev Digest := { bytes : List UInt8 // bytes.length = 32 }

/-- The CIDv0 of a digest. -/
def cidv0 (digest : Digest) : String := base58 (cidv0Prefix ++ digest.val)

/-- A text of a digest: its hex digits, perhaps behind a marker, with space around it. -/
def Spells (digest : Digest) (text : String) : Prop :=
  ∃ lead marker digits trail : List Char, (∀ c ∈ lead, isWhitespace c) ∧
    (∀ c ∈ trail, isWhitespace c) ∧ (marker = [] ∨ marker = ['0', 'x']) ∧
    digits.map Char.toLower = (hexEncode digest.val).toList ∧
    text.toList = lead ++ (marker ++ digits) ++ trail

/-- The path of the gateway for an id: an IPFS hash is a deployment, anything else a subgraph. -/
def gatewayPath (subgraphId : String) : String :=
  if ['Q', 'm'].isPrefixOf subgraphId.toList then "deployments/id" else "subgraphs/id"

section Digits

private theorem base58Alphabet_getD {digit : Nat} (small : digit < 58) :
    base58Alphabet.idxOf (base58Alphabet.getD digit '1') = digit := by
  have table : ∀ digit < 58, base58Alphabet.idxOf (base58Alphabet.getD digit '1') = digit := by
    decide
  exact table digit small

/-- The digits are read back from the alphabet. -/
theorem base58Digits_injective : Function.Injective base58Digits := by
  have read (value : Nat) : (base58Digits value).map base58Alphabet.idxOf = Nat.digits 58 value := by
    rw [base58Digits, List.map_map]
    conv_rhs => rw [← List.map_id (Nat.digits 58 value)]
    refine List.map_congr_left fun digit member => base58Alphabet_getD ?_
    exact Nat.digits_lt_base (by decide) member
  intro left right same
  have digits := congrArg (List.map base58Alphabet.idxOf) same
  rw [read, read] at digits
  exact Nat.digits_inj_iff.mp digits

/-- A number between two multiples of a power has the digits of the multiple on top. -/
theorem digits_of_top {base value top count : Nat} (large : 1 < base) (positive : 0 < top)
    (low : top * base ^ count ≤ value) (high : value < (top + 1) * base ^ count) :
    ∃ lower, lower.length = count ∧ Nat.digits base value = lower ++ Nat.digits base top := by
  have rest : value - top * base ^ count < base ^ count := by
    rw [Nat.add_mul, Nat.one_mul] at high
    omega
  have short := (Nat.digits_length_le_iff large _).mpr rest
  obtain ⟨zeros, total⟩ := Nat.exists_eq_add_of_le short
  refine ⟨Nat.digits base (value - top * base ^ count) ++ List.replicate zeros 0, ?_, ?_⟩
  · rw [List.length_append, List.length_replicate, ← total]
  · rw [Nat.digits_append_zeroes_append_digits large positive, ← total, Nat.mul_comm (base ^ count),
      Nat.sub_add_cancel low]

end Digits

section Cidv0

/-- The number of a CIDv0 lies between those of its prefix and of the next. -/
theorem beValue_cidv0 (digest : Digest) :
    beValue (cidv0Prefix ++ digest.val) = 0x1220 * 256 ^ 32 + beValue digest.val := by
  rw [beValue_append, digest.property]
  rfl

/-- A CIDv0 is the base58 numeral of the prefix and the digest. -/
theorem cidv0_eq (digest : Digest) : cidv0 digest =
    String.ofList (base58Digits (beValue (cidv0Prefix ++ digest.val))).reverse := rfl

/-- The first two digits are those of 1378 = 23 · 58 + 44. -/
theorem cidv0_spelled (digest : Digest) : ∃ lower : List Char, lower.length = 44 ∧
    (cidv0 digest).toList = 'Q' :: 'm' :: lower ∧ ∀ c ∈ lower, c ∈ base58Alphabet := by
  have bound := beValue_lt digest.val
  rw [digest.property] at bound
  have low : 1378 * 58 ^ 44 ≤ beValue (cidv0Prefix ++ digest.val) := by
    rw [beValue_cidv0]
    omega
  have high : beValue (cidv0Prefix ++ digest.val) < (1378 + 1) * 58 ^ 44 := by
    rw [beValue_cidv0]
    omega
  obtain ⟨lower, length, digits⟩ := digits_of_top (by decide) (by decide) low high
  have top : Nat.digits 58 1378 = [44, 23] := by norm_num
  let char (digit : Nat) : Char := base58Alphabet.getD digit '1'
  have first : [char 44, char 23] = ['m', 'Q'] := by decide
  have spelled : base58Digits (beValue (cidv0Prefix ++ digest.val)) = lower.map char ++ ['m', 'Q'] := by
    rw [base58Digits, digits, top, List.map_append, ← first]
    rfl
  refine ⟨(lower.map char).reverse, ?_, ?_, ?_⟩
  · rw [List.length_reverse, List.length_map, length]
  · rw [cidv0_eq, String.toList_ofList, spelled, List.reverse_append]
    rfl
  · intro c member
    obtain ⟨digit, inside, rfl⟩ := List.mem_map.mp (List.mem_reverse.mp member)
    have small : digit < 58 := by
      have listed : digit ∈ Nat.digits 58 (beValue (cidv0Prefix ++ digest.val)) := by
        rw [digits]
        exact List.mem_append_left _ inside
      exact Nat.digits_lt_base (by decide) listed
    have table : ∀ digit < 58, base58Alphabet.getD digit '1' ∈ base58Alphabet := by decide
    exact table digit small

/-- Different digests have different CIDs. -/
theorem cidv0_injective : Function.Injective cidv0 := by
  intro left right same
  rw [cidv0_eq, cidv0_eq, String.ofList_inj, List.reverse_inj] at same
  have numbers := base58Digits_injective same
  rw [beValue_cidv0, beValue_cidv0, Nat.add_left_cancel_iff] at numbers
  exact Subtype.ext (beValue_inj (left.property.trans right.property.symm) numbers)

end Cidv0

section Spelling

variable {digest : Digest} {text : String}

/-- A hex digit is one byte long, no blank and not an `x`. -/
theorem plain_of_hexDigit {c : Char} {nibble : UInt8} (read : hexDigit c = some nibble) :
    isWhitespace c = false ∧ c.utf8Size = 1 ∧ c ≠ 'x' := by
  have table : ∀ code < 128, ∀ nibble ∈ hexDigit (Char.ofNat code),
      isWhitespace (Char.ofNat code) = false ∧ (Char.ofNat code).utf8Size = 1 ∧ Char.ofNat code ≠ 'x' := by
    decide +kernel
  have found := table c.toNat (ascii_of_hexDigit read) nibble
  rw [Char.ofNat_toNat] at found
  exact found read

private theorem byteLength_of_single {chars : List Char} (single : ∀ c ∈ chars, c.utf8Size = 1) :
    byteLength chars = chars.length := by
  induction chars with
  | nil => rfl
  | cons c rest ih =>
    obtain ⟨first, others⟩ := List.forall_mem_cons.mp single
    have later := ih others
    rw [byteLength] at later
    rw [byteLength, List.map_cons, List.sum_cons, first, later, List.length_cons, Nat.add_comm]

private theorem byteLength_of_hexDecode {digits : List Char} {bytes : List UInt8}
    (decoded : hexDecode digits = some bytes) : byteLength digits = digits.length := by
  refine byteLength_of_single fun c member => ?_
  obtain ⟨nibble, read⟩ := exists_hexDigit_of_mem decoded member
  exact (plain_of_hexDigit read).2.1

/-- Digits have no marker of their own. -/
theorem stripHexMarker_digits {digits : List Char} {bytes : List UInt8}
    (decoded : hexDecode digits = some bytes) : stripHexMarker digits = digits := by
  unfold stripHexMarker
  split
  · obtain ⟨nibble, read⟩ := exists_hexDigit_of_mem decoded
      (List.mem_cons_of_mem '0' List.mem_cons_self)
    exact absurd rfl (plain_of_hexDigit read).2.2
  · rfl

/-- All texts of a digest have one id. -/
theorem normaliseDeploymentId_of_spells (spells : Spells digest text) :
    normaliseDeploymentId text = cidv0 digest := by
  obtain ⟨lead, marker, digits, trail, leadSpaces, trailSpaces, marked, lower, whole⟩ := spells
  have decoded : hexDecode digits = some digest.val := by
    rw [← hexDecode_toLower, lower, hexDecode_hexEncode]
  have length : byteLength digits = 64 := by
    rw [byteLength_of_hexDecode decoded, length_hexDecode decoded, digest.property]
  have plain : ∀ c ∈ marker ++ digits, isWhitespace c = false := by
    intro c member
    rcases List.mem_append.mp member with inMarker | inDigits
    · rcases marked with rfl | rfl
      · cases inMarker
      · simp only [List.mem_cons, List.not_mem_nil, or_false] at inMarker
        rcases inMarker with rfl | rfl <;> rfl
    · obtain ⟨nibble, read⟩ := exists_hexDigit_of_mem decoded inDigits
      exact (plain_of_hexDigit read).1
  have trimmed : trimText text = marker ++ digits := by
    show trimBy isWhitespace text.toList = marker ++ digits
    rw [whole, trimBy_append leadSpaces trailSpaces]
    exact trimBy_eq_self (fun c first => plain c (List.mem_of_mem_head? first))
      fun c last => plain c (List.mem_of_mem_getLast? last)
  have stripped : stripHexMarker (marker ++ digits) = digits := by
    rcases marked with rfl | rfl
    · exact stripHexMarker_digits decoded
    · rfl
  simp only [normaliseDeploymentId, trimmed, stripped, length, decoded, if_true]
  rfl

end Spelling

section Idempotent

private theorem trimText_trimText (text : String) :
    trimText (String.ofList (trimText text)) = trimText text := by
  show trimBy isWhitespace (String.ofList (trimBy isWhitespace text.toList)).toList = _
  rw [String.toList_ofList, trimBy_trimBy]
  rfl

private theorem plain_of_base58 {c : Char} (listed : c ∈ base58Alphabet) :
    isWhitespace c = false ∧ c.utf8Size = 1 := by
  have table : base58Alphabet.all fun c => !isWhitespace c && decide (c.utf8Size = 1) := by
    decide
  simpa using List.all_eq_true.mp table c listed

/-- A CIDv0 is not taken for hex. -/
theorem normaliseDeploymentId_cidv0 (digest : Digest) :
    normaliseDeploymentId (cidv0 digest) = cidv0 digest := by
  obtain ⟨lower, length, spelled, listed⟩ := cidv0_spelled digest
  have plain : ∀ c ∈ (cidv0 digest).toList, isWhitespace c = false ∧ c.utf8Size = 1 := by
    rw [spelled]
    intro c member
    rcases List.mem_cons.mp member with rfl | later
    · decide
    · rcases List.mem_cons.mp later with rfl | inside
      · decide
      · exact plain_of_base58 (listed c inside)
  have trimmed : trimText (cidv0 digest) = (cidv0 digest).toList :=
    trimBy_eq_self (fun c first => (plain c (List.mem_of_mem_head? first)).1)
      fun c last => (plain c (List.mem_of_mem_getLast? last)).1
  have stripped : stripHexMarker (cidv0 digest).toList = (cidv0 digest).toList := by
    rw [spelled]
    rfl
  have short : byteLength (cidv0 digest).toList ≠ 64 := by
    rw [byteLength_of_single fun c member => (plain c member).2, spelled, List.length_cons,
      List.length_cons, length]
    decide
  simp only [normaliseDeploymentId, trimmed, stripped, short, if_false, String.ofList_toList]

/-- An id is made a CIDv0 or only trimmed. -/
theorem normaliseDeploymentId_cases (id : String) :
    (∃ digest, normaliseDeploymentId id = cidv0 digest) ∨
      normaliseDeploymentId id = String.ofList (trimText id) := by
  simp only [normaliseDeploymentId]
  split
  · rename_i length
    split
    · rename_i digest decoded
      have digits := length_hexDecode decoded
      rw [← byteLength_of_hexDecode decoded, length] at digits
      exact .inl ⟨⟨digest, by omega⟩, rfl⟩
    · exact .inr rfl
  · exact .inr rfl

/-- Ids that differ in outer blanks are normalised alike. -/
theorem normaliseDeploymentId_congr {left right : String} (same : trimText left = trimText right) :
    normaliseDeploymentId left = normaliseDeploymentId right := by
  simp only [normaliseDeploymentId, same]

/-- A normalised id is its own normal form. -/
theorem normaliseDeploymentId_idem (id : String) :
    normaliseDeploymentId (normaliseDeploymentId id) = normaliseDeploymentId id := by
  rcases normaliseDeploymentId_cases id with ⟨digest, made⟩ | passed
  · rw [made, normaliseDeploymentId_cidv0]
  · calc normaliseDeploymentId (normaliseDeploymentId id)
        = normaliseDeploymentId (String.ofList (trimText id)) := by rw [passed]
      _ = normaliseDeploymentId id := normaliseDeploymentId_congr (trimText_trimText id)

end Idempotent

/-- One deployment, one id: the texts of a digest have its CIDv0 as their id, of 46 characters
and with the beginning that makes the gateway take it for a deployment. No two digests share
it, and an id stays as it is when it is normalised again. -/
theorem one_deployment_one_id :
    (∀ (digest : Digest) (text : String), Spells digest text →
      normaliseDeploymentId text = base58 ([0x12, 0x20] ++ digest.val)) ∧
    (∀ digest : Digest, (cidv0 digest).length = 46 ∧ (∃ rest, (cidv0 digest).toList = 'Q' :: 'm' :: rest) ∧
      gatewayPath (cidv0 digest) = "deployments/id") ∧
    Function.Injective cidv0 ∧
    ∀ id : String, normaliseDeploymentId (normaliseDeploymentId id) = normaliseDeploymentId id := by
  refine ⟨fun digest text spells => normaliseDeploymentId_of_spells spells, fun digest => ?_,
    cidv0_injective, normaliseDeploymentId_idem⟩
  obtain ⟨lower, length, spelled, _⟩ := cidv0_spelled digest
  refine ⟨?_, ⟨lower, spelled⟩, ?_⟩
  · rw [← String.length_toList, spelled, List.length_cons, List.length_cons, length]
  · rw [gatewayPath, spelled]
    rfl

/-- The digest of graph-network-arbitrum. -/
def networkDigest : Digest :=
  ⟨[0x45, 0xc6, 0x36, 0xb7, 0x37, 0x28, 0xd7, 0x5a, 0x77, 0xb8, 0x4c, 0x78, 0x2e, 0x2a, 0x44, 0x62,
    0x4a, 0x29, 0x4c, 0x14, 0x14, 0x32, 0x6e, 0x59, 0xf1, 0x2d, 0x60, 0xe0, 0xa6, 0xe5, 0x8f, 0x51], rfl⟩

/-- Its digits in capital letters. -/
def networkDigits : List Char := (hexEncode networkDigest.val).toList.map Char.toUpper

/-- The hex digits of the network's deployment, with blanks, are normalised to its CID. -/
theorem one_deployment_one_id_network :
    normaliseDeploymentId (String.ofList ([' '] ++ (['0', 'x'] ++ networkDigits) ++ ['\n'])) =
      base58 ([0x12, 0x20] ++ networkDigest.val) := by
  have lower : networkDigits.map Char.toLower = (hexEncode networkDigest.val).toList := by
    rw [networkDigits, toList_hexEncode]
    decide
  exact one_deployment_one_id.1 networkDigest _ ⟨[' '], ['0', 'x'], networkDigits, ['\n'],
    List.forall_mem_singleton.mpr rfl, List.forall_mem_singleton.mpr rfl, .inr rfl, lower,
    String.toList_ofList⟩

end Foghorn.Core
