import Mathlib.Data.Rat.Defs
import Foghorn.Core.Deployment

/-!
# What the nest answers

The nest serves the folded allocation set and the registrations of the indexers. It is asked
for allocations only while it is current, and an answer that it cut off counts as none.
-/

namespace Foghorn.Probe

open Foghorn.Core

/-- `MAX_LAG_BLOCKS`. -/
def maxLagBlocks : Nat := 10000

structure NestAllocation where
  allocationId : String
  indexer : String
  deploymentId : String
  tokens : Option String

structure NestEndpointRow where
  indexer : String
  data : String

/-- `CAST(.. AS numeric)` of a nullable text. -/
def castNullable (numeric : String → Option ℚ) : Option String → Option (Option ℚ)
  | some tokens => (numeric tokens).map some
  | none => some none

/-- What comes of a query. -/
inductive SqlAnswer (Row : Type) where
  | unreachable
  | status (code : Nat)
  | unparseable
  | response (rows : List Row) (truncated : Bool)

/-- `NestClient::sql`: the rows, unless the query failed. -/
def SqlAnswer.sql {Row : Type} : SqlAnswer Row → Option (List Row)
  | response rows truncated => if truncated then none else some rows
  | _ => none

structure ReadyBody where
  ready : Bool
  lagBlocks : Option Nat

/-- What comes of asking `/ready`. -/
inductive ReadyAnswer where
  | unreachable
  | unparseable
  | answered (status : Nat) (body : ReadyBody)

/-- `lag_blocks`. The body of a 503 is read as well. -/
def ReadyAnswer.lagBlocks : ReadyAnswer → Option Nat
  | answered status body =>
    if ¬ (200 ≤ status ∧ status < 300) ∧ status ≠ 503 then none
    else if ¬ body.ready then none
    else body.lagBlocks
  | _ => none

/-- `NestClient::allocations`. -/
def nestAllocations (ready : ReadyAnswer) (answer : SqlAnswer NestAllocation) :
    Option (List NestAllocation) := do
  let lag ← ready.lagBlocks
  if maxLagBlocks < lag then none
  else
    let rows ← answer.sql
    if rows = [] then none
    else some (rows.map fun a => { a with deploymentId := normaliseDeploymentId a.deploymentId })

section Registrations

/-- The bounds of the bytes that follow the first byte of a character. -/
def continuationBounds (first : UInt8) : Option (List (UInt8 × UInt8)) :=
  if first < 0x80 then some []
  else if first < 0xc2 then none
  else if first < 0xe0 then some [(0x80, 0xbf)]
  else if first < 0xf0 then
    some [(if first = 0xe0 then 0xa0 else 0x80, if first = 0xed then 0x9f else 0xbf), (0x80, 0xbf)]
  else if first < 0xf5 then
    some [(if first = 0xf0 then 0x90 else 0x80, if first = 0xf4 then 0x8f else 0xbf), (0x80, 0xbf),
      (0x80, 0xbf)]
  else none

def takeContinuation : List (UInt8 × UInt8) → List UInt8 → List UInt8
  | (low, high) :: bounds, byte :: rest =>
    if low ≤ byte ∧ byte ≤ high then byte :: takeContinuation bounds rest else []
  | _, _ => []

def replacementChar : Char := Char.ofNat 0xfffd

/-- The character of a complete sequence. -/
def charOf (first : UInt8) (continuation : List UInt8) : Char :=
  let lead := match continuation.length with
    | 0 => first
    | 1 => first &&& 0x1f
    | 2 => first &&& 0x0f
    | _ => first &&& 0x07
  Char.ofNat (continuation.foldl (fun code byte => code * 64 + (byte &&& 0x3f).toNat) lead.toNat)

/-- `String::from_utf8_lossy`: a part of a sequence that does not go on becomes one
replacement character. The fuel is the number of bytes. -/
def utf8Lossy : Nat → List UInt8 → List Char
  | fuel + 1, first :: rest =>
    match continuationBounds first with
    | none => replacementChar :: utf8Lossy fuel rest
    | some bounds =>
      let continuation := takeContinuation bounds rest
      (if continuation.length = bounds.length then charOf first continuation else replacementChar) ::
        utf8Lossy fuel (rest.drop continuation.length)
  | _, _ => []

/-- `bytes.get(start..stop)`. -/
def slice (bytes : List UInt8) (start stop : Nat) : Option (List UInt8) :=
  if start ≤ stop ∧ stop ≤ bytes.length then some ((bytes.drop start).take (stop - start)) else none

def checkedAdd (left right : Nat) : Option Nat :=
  if left + right < 2 ^ 64 then some (left + right) else none

/-- The word at an offset, unless it is too large for an index. An offset near the end of the
index range is past every payload, with or without the wrap-around of `at + 32`. -/
def wordAt (bytes : List UInt8) (offset : Nat) : Option Nat := do
  let word ← slice bytes offset (offset + 32)
  if (word.take 24).any fun byte => byte ≠ 0 then none
  else some ((word.drop 24).foldl (fun number byte => number * 256 + byte.toNat) 0)

def decodeServiceUrl (dataHex : String) : Option String := do
  let bytes ← hexDecode (stripHexMarker dataHex.toList)
  let urlOff ← wordAt bytes 0
  let urlLen ← wordAt bytes urlOff
  let start ← checkedAdd urlOff 32
  let stop ← checkedAdd start urlLen
  let raw ← slice bytes start stop
  some (String.ofList (trimText (String.ofList (utf8Lossy raw.length raw))))

/-- Where an indexer is registered, unless its registration does not decode. -/
def NestEndpointRow.endpoint (crates : Crates) (r : NestEndpointRow) : Option (String × String) :=
  match decodeServiceUrl r.data with
  | some url => if url = "" then none else some (crates.lowercase r.indexer, url)
  | none => none

/-- `NestClient::endpoints`. -/
def nestEndpoints (crates : Crates) (answer : SqlAnswer NestEndpointRow) :
    Option (List (String × String)) :=
  answer.sql.map fun rows => rows.filterMap (NestEndpointRow.endpoint crates)

end Registrations

end Foghorn.Probe
