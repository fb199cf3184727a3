import Foghorn.Core.Json

/-!
# Canonical text and response hash

The members that differ between honest indexers are stripped, the rest is printed
with sorted keys, and the text is hashed. A body that does not parse has no hash.
-/

namespace Foghorn.Core

/-- Drop `extensions`, `headers` and `data._meta` from a response envelope. -/
def stripVolatile : Json → Json
  | .object members =>
    let envelope := Json.removeMember (Json.removeMember members "extensions") "headers"
    .object (envelope.map fun entry =>
      match entry with
      | ("data", .object data) => ("data", .object (Json.removeMember data "_meta"))
      | other => other)
  | other => other

mutual

/-- JCS-style text: keys sorted, no whitespace. Every number is finite, so the source's
assertion against NaN and infinity cannot fire. -/
def jcsSerialize (crates : Crates) : Json → String
  | .null => "null"
  | .bool value => if value then "true" else "false"
  | .number value => value.render crates
  | .string value => crates.quote value
  | .array items => "[" ++ ",".intercalate (jcsItems crates items) ++ "]"
  | .object members =>
    let sorted := (jcsMembers crates members).insertionSort fun left right => left.1 ≤ right.1
    "\x7b" ++ ",".intercalate (sorted.map fun entry =>
      crates.quote entry.1 ++ ":" ++ entry.2) ++ "\x7d"

def jcsItems (crates : Crates) : List Json → List String
  | [] => []
  | item :: rest => jcsSerialize crates item :: jcsItems crates rest

def jcsMembers (crates : Crates) : List (String × Json) → List (String × String)
  | [] => []
  | (key, value) :: rest => (key, jcsSerialize crates value) :: jcsMembers crates rest

end

/-- SHA-256 of the canonical text, in hex. -/
def hashResponse (crates : Crates) (value : Json) : String :=
  crates.sha256Hex (jcsSerialize crates value)

/-- Hash of a raw body; `none` is the parse error. -/
def normalizeAndHash (crates : Crates) (raw : String) : Option String :=
  (crates.parse raw).map fun value => hashResponse crates (stripVolatile value)

@[simp] theorem normalizeAndHash_isSome (crates : Crates) (raw : String) :
    (normalizeAndHash crates raw).isSome = (crates.parse raw).isSome := by
  simp [normalizeAndHash]

end Foghorn.Core
