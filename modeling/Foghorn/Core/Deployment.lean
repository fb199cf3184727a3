import Mathlib.Data.Nat.Digits.Defs
import Foghorn.Probe.Attestation

/-!
# One form for a deployment id

A deployment is an IPFS hash `Qm…` or the same digest as 32 bytes of hex. The hash is the
digest in base 58 behind the prefix of every CIDv0.
-/

namespace Foghorn.Core

open Foghorn.Probe

def base58Alphabet : List Char := "123456789ABCDEFGHJKLMNPQRSTUVWXYZabcdefghijkmnopqrstuvwxyz".toList

/-- The digits of a number in base 58, the lowest first. -/
def base58Digits (value : Nat) : List Char :=
  (Nat.digits 58 value).map fun digit => base58Alphabet.getD digit '1'

/-- `bs58::encode`: one `1` for each leading zero byte, then the number. -/
def base58 (bytes : List UInt8) : String :=
  let zeros := (bytes.takeWhile fun byte => byte = 0).map fun _ => '1'
  let value := bytes.foldl (fun number byte => number * 256 + byte.toNat) 0
  String.ofList (zeros ++ (base58Digits value).reverse)

/-- `char::is_whitespace`. -/
def isWhitespace (c : Char) : Bool :=
  let code := c.toNat
  (9 ≤ code && code ≤ 13) || (0x2000 ≤ code && code ≤ 0x200a) ||
    code ∈ [0x20, 0x85, 0xa0, 0x1680, 0x2028, 0x2029, 0x202f, 0x205f, 0x3000]

/-- `str::trim`. -/
def trimText (text : String) : List Char :=
  ((text.toList.dropWhile isWhitespace).reverse.dropWhile isWhitespace).reverse

/-- `strip_prefix("0x").unwrap_or(..)`, which removes one marker. -/
def stripHexMarker : List Char → List Char
  | '0' :: 'x' :: rest => rest
  | other => other

def cidv0Prefix : List UInt8 := [0x12, 0x20]

/-- What is not 32 bytes of hex is passed through without the spaces around it. -/
def normaliseDeploymentId (id : String) : String :=
  let trimmed := trimText id
  let hexBody := stripHexMarker trimmed
  if byteLength hexBody = 64 then
    match hexDecode hexBody with
    | some digest => base58 (cidv0Prefix ++ digest)
    | none => String.ofList trimmed
  else String.ofList trimmed

/-- The graph-network-arbitrum deployment, under both of its ids. -/
example : normaliseDeploymentId "0x45c636b73728d75a77b84c782e2a44624a294c1414326e59f12d60e0a6e58f51" =
    "QmT329Bej8AwSLahmgnmi6fdYkj3rorYAcCes45gDv9aJ4" := by
  decide

end Foghorn.Core
