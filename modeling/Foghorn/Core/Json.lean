import Mathlib.Algebra.Group.Int.Defs
import Mathlib.Data.Rat.Defs
import Mathlib.Algebra.GroupWithZero.Nat
import Mathlib.Data.List.Sort
import Mathlib.Data.List.Infix

/-!
# JSON values and the code Foghorn takes from elsewhere

`Json` is `serde_json::Value` with its insertion-ordered map. `Crates` collects the
functions whose source is not Foghorn's: parsing and printing JSON text, the digests,
the elliptic-curve recovery, the JSON diff, address parsing and the Unicode case
tables. Every definition below takes them as a parameter and no result assumes
anything of them that it does not name.
-/

namespace Foghorn.Core

/-- A `serde_json::Number`. A float keeps its sign apart because `-0` has one. -/
inductive Number where
  | posInt (value : Nat)
  | negInt (value : Int)
  | float (negative : Bool) (magnitude : ℚ)
deriving DecidableEq

/-- A `serde_json::Value`. -/
inductive Json where
  | null
  | bool (value : Bool)
  | number (value : Number)
  | string (value : String)
  | array (items : List Json)
  | object (members : List (String × Json))

/-- Functions Foghorn calls whose source is not in the repository. -/
structure Crates where
  /-- `serde_json::from_str::<Value>`. -/
  parse : String → Option Json
  /-- `serde_json::to_string` of a string, quotes and escapes included. -/
  quote : String → String
  /-- How `serde_json` prints a finite float. -/
  showFloat : Bool → ℚ → String
  /-- Lower-case hex of the SHA-256 of a text. -/
  sha256Hex : String → String
  keccak256 : List UInt8 → List UInt8
  /-- The uncompressed public key, without its leading `0x04`, that signed a digest. -/
  recoverKey : (digest r s : List UInt8) → (v : UInt8) → Option (List UInt8)
  /-- `json_patch::diff` as a JSON value. -/
  jsonDiff : Json → Json → Json
  /-- Whether a text is a 20-byte hex address for `tap_query::Address`. -/
  parsesAsAddress : String → Bool
  /-- `str::to_lowercase`. -/
  lowercase : String → String
  /-- `LOWER`, by the collation of the database. -/
  lower : String → String

/-- Crates that know a few texts: what they parse to and what they hash to. -/
def Crates.knowing (parses : List (String × Json)) (digests : List (String × String)) : Crates where
  parse text := parses.lookup text
  quote text := "\"" ++ text ++ "\""
  showFloat _ _ := ""
  sha256Hex text := (digests.lookup text).getD ""
  keccak256 _ := []
  recoverKey _ _ _ _ := none
  jsonDiff _ _ := .array []
  parsesAsAddress text := text.length = 42
  lowercase text := String.ofList (text.toList.map Char.toLower)
  lower text := String.ofList (text.toList.map Char.toLower)

/-- Crates know what each of some distinct texts parses to. -/
theorem Crates.parse_knowing {parses : List (String × Json)} (digests : List (String × String))
    (distinct : (parses.map Prod.fst).Nodup) {text : String} {value : Json}
    (member : (text, value) ∈ parses) : (Crates.knowing parses digests).parse text = some value := by
  change parses.lookup text = some value
  induction parses with
  | nil => cases member
  | cons entry rest ih =>
    obtain ⟨fresh, restDistinct⟩ := List.nodup_cons.mp distinct
    rcases List.mem_cons.mp member with rfl | later
    · exact List.lookup_cons_self
    · have apart : text ≠ entry.1 := fun same =>
        fresh (same ▸ List.mem_map.mpr ⟨_, later, rfl⟩)
      rw [List.lookup_cons, beq_false_of_ne apart]
      exact ih restDistinct later

namespace Json

/-- `value.get(key)`: the member of an object. -/
def get : Json → String → Option Json
  | object members, key => (members.find? fun entry => entry.1 = key).map Prod.snd
  | _, _ => none

/-- `value[key]`, which is null where `get` finds nothing. -/
def index (value : Json) (key : String) : Json := (value.get key).getD null

def asStr : Json → Option String
  | string value => some value
  | _ => none

def asArray : Json → Option (List Json)
  | array items => some items
  | _ => none

/-- `as_i64`: integers in range only, never a float. -/
def asI64 : Json → Option Int
  | number (.posInt value) => if value < 2 ^ 63 then some value else none
  | number (.negInt value) => some value
  | _ => none

def asU64 : Json → Option Nat
  | number (.posInt value) => some value
  | _ => none

/-- `value.pointer("/a/b")` where no part of the path is an index. -/
def pointer : Json → List String → Option Json
  | value, [] => some value
  | value, key :: rest => (value.get key).bind fun member => member.pointer rest

/-- A float as a JSON number. -/
def ofRat (value : ℚ) : Json := number (.float (value < 0) (if value < 0 then -value else value))

def ofInt (value : Int) : Json :=
  if value < 0 then number (.negInt value) else number (.posInt value.toNat)

/-- `json!` of an optional value: null when absent. -/
def ofOption {α : Type} (encode : α → Json) : Option α → Json
  | some value => encode value
  | none => null

/-- `Map::remove`, which moves the last member into the gap. -/
def removeMember (members : List (String × Json)) (key : String) : List (String × Json) :=
  match members.findIdx? (fun entry => entry.1 = key), members.getLast? with
  | some position, some last => (members.set position last).dropLast
  | _, _ => members

end Json

/-- How `serde_json` prints a number. -/
def Number.render (crates : Crates) : Number → String
  | .posInt value => toString value
  | .negInt value => toString value
  | .float negative magnitude => crates.showFloat negative magnitude

mutual

/-- `Value::to_string`, members in map order. -/
def Json.render (crates : Crates) : Json → String
  | .null => "null"
  | .bool value => if value then "true" else "false"
  | .number value => value.render crates
  | .string value => crates.quote value
  | .array items => "[" ++ ",".intercalate (Json.renderItems crates items) ++ "]"
  | .object members =>
    "\x7b" ++ ",".intercalate ((Json.renderMembers crates members).map fun entry =>
      crates.quote entry.1 ++ ":" ++ entry.2) ++ "\x7d"

def Json.renderItems (crates : Crates) : List Json → List String
  | [] => []
  | item :: rest => item.render crates :: Json.renderItems crates rest

def Json.renderMembers (crates : Crates) : List (String × Json) → List (String × String)
  | [] => []
  | (key, value) :: rest => (key, value.render crates) :: Json.renderMembers crates rest

end

/-- The number that decimal digits spell. -/
def digitsValue (digits : List Char) : Option Nat :=
  if digits = [] then none
  else digits.foldlM (fun value digit =>
    if digit.isDigit then some (10 * value + (digit.toNat - '0'.toNat)) else none) 0

/-- `text.parse::<i64>()`. -/
def parseI64 (text : String) : Option Int :=
  let value : Option Int := match text.toList with
    | '-' :: digits => (digitsValue digits).map fun value => -(value : Int)
    | '+' :: digits => (digitsValue digits).map Int.ofNat
    | digits => (digitsValue digits).map Int.ofNat
  value.filter fun value => -2 ^ 63 ≤ value ∧ value < 2 ^ 63

/-- `text.contains(pattern)`. -/
def containsText (text pattern : String) : Bool :=
  decide (pattern.toList <:+: text.toList)

/-- `text.starts_with(pattern)`. -/
def startsWithText (text pattern : String) : Bool :=
  pattern.toList.isPrefixOf text.toList

end Foghorn.Core
