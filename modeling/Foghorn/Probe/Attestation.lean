import Foghorn.Core.Json

/-!
# Recovering who signed an answer

An attestation is a JSON object whose signed fields are 32-byte hex texts. The signer
is recovered from the EIP-712 digest of those fields; the curve arithmetic itself is
`Crates.recoverKey`. An attestation that recovers to nobody is not evidence.
-/

namespace Foghorn.Probe

open Foghorn.Core

/-- `trim_start_matches("0x")`, which removes the marker as often as it occurs. -/
def trimHexMarker : List Char → List Char
  | '0' :: 'x' :: rest => trimHexMarker rest
  | other => other

/-- One hex digit. `hex_nibble`, which reads any other character as zero, is only given digits. -/
def hexDigit (digit : Char) : Option UInt8 :=
  if '0' ≤ digit ∧ digit ≤ '9' then some (digit.toNat - '0'.toNat).toUInt8
  else if 'a' ≤ digit ∧ digit ≤ 'f' then some (digit.toNat - 'a'.toNat + 10).toUInt8
  else if 'A' ≤ digit ∧ digit ≤ 'F' then some (digit.toNat - 'A'.toNat + 10).toUInt8
  else none

/-- `hex::decode`. -/
def hexDecode : List Char → Option (List UInt8)
  | [] => some []
  | high :: low :: rest => do
    let high ← hexDigit high
    let low ← hexDigit low
    let bytes ← hexDecode rest
    some ((high <<< 4 ||| low) :: bytes)
  | [_] => none

/-- `hex::encode`. -/
def hexEncode (bytes : List UInt8) : String :=
  let digit (nibble : UInt8) : Char :=
    if nibble < 10 then Char.ofNat ('0'.toNat + nibble.toNat)
    else Char.ofNat ('a'.toNat + nibble.toNat - 10)
  String.ofList (bytes.flatMap fun (byte : UInt8) => [digit (byte >>> 4), digit (byte &&& 15)])

/-- `hex_bytes`, of a constant that is all hex digits. -/
def hexBytes (constant : String) : List UInt8 :=
  (hexDecode constant.toList).getD []

def receiptTypehash : List UInt8 :=
  hexBytes "32dd026408194a0d7e54cc66a2ab6c856efc55cfcd4dd258fde5b1a55222baa6"

def domainSeparator : List UInt8 :=
  hexBytes "334534ebf2bc5646180e51fb57f74e967114b2abe197d4aed526f908494a87ce"

/-- Length of a text in UTF-8 bytes. -/
def byteLength (text : List Char) : Nat := (text.map fun c => c.utf8Size).sum

/-- The closure `parse_hex32`. -/
def parseHex32 (value : Json) (key : String) : Option (List UInt8) := do
  let text ← (value.index key).asStr
  let digits := trimHexMarker text.toList
  if byteLength digits = 64 then hexDecode digits else none

/-- The signing address of an attestation, if its signature recovers. -/
def tryRecoverSigner (crates : Crates) (value : Json) : Option String := do
  let requestCid ← parseHex32 value "requestCID"
  let responseCid ← parseHex32 value "responseCID"
  let deploymentId ← parseHex32 value "subgraphDeploymentID"
  let r ← parseHex32 value "r"
  let s ← parseHex32 value "s"
  -- `as u8` keeps the low byte.
  let v ← (value.index "v").asU64
  let receiptHash := crates.keccak256 (receiptTypehash ++ requestCid ++ responseCid ++ deploymentId)
  let digest := crates.keccak256 ([0x19, 0x01] ++ domainSeparator ++ receiptHash)
  let publicKey ← crates.recoverKey digest r s (UInt8.ofNat v)
  some ("0x" ++ hexEncode ((crates.keccak256 publicKey).drop 12))

/-- The address that a `graph-attestation` header names. -/
def parseAttestationAddress (crates : Crates) (header : String) : String :=
  match crates.parse header with
  | none => "gateway-bad-attestation"
  | some value => (tryRecoverSigner crates value).getD "gateway-unresolved"

/-- The closure `cid`: the text as it was written, when it has 64 digits. -/
def cidText (value : Json) (key : String) : Option String := do
  let text ← (value.index key).asStr
  if byteLength (trimHexMarker text.toList) = 64 then some text else none

/-- The signed hashes of an attestation whose signature recovers. -/
def attestationCids (crates : Crates) (header : String) : Option (String × String) := do
  let value ← crates.parse header
  let _ ← tryRecoverSigner crates value
  let requestCid ← cidText value "requestCID"
  let responseCid ← cidText value "responseCID"
  some (requestCid, responseCid)

end Foghorn.Probe
