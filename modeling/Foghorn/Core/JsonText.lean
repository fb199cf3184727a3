import Foghorn.Std.Binary64
import Foghorn.Core.CanonicalText

/-!
# JSON as it is written

A body spells its numbers in decimal. `serde_json` keeps an integer that fits 64 bits, and of any
other number an `f64` of its own making, which need not be the double nearest to what is spelled:
two spellings of one double can be read as two.
-/

namespace Foghorn.Core

open Foghorn.Std

/-- A number as a body spells it. -/
structure NumberText where
  negative : Bool
  whole : Nat
  /-- The digits behind the point, if there is one. -/
  fraction : Option (List (Fin 10))
  exponent : Option Int
deriving DecidableEq

namespace NumberText

/-- The value of the digits behind a point. -/
def fractionValue : List (Fin 10) → ℚ
  | [] => 0
  | digit :: rest => (digit.val + fractionValue rest) / 10

/-- What is spelled, without its sign. -/
def magnitude (text : NumberText) : ℚ :=
  (text.whole + fractionValue (text.fraction.getD [])) * 10 ^ text.exponent.getD 0

/-- The number is in the range of doubles. -/
def InRange (text : NumberText) : Prop := text.magnitude ≤ maxDouble

instance (text : NumberText) : Decidable text.InRange := inferInstanceAs (Decidable (_ ≤ _))

/-- The integer that is kept of a number without fraction and exponent, if it is in the range of
`u64`, or negative and in that of `i64`. -/
def integer (text : NumberText) : Option Int :=
  if text.fraction.isSome ∨ text.exponent.isSome then none
  else if text.negative then
    if text.whole = 0 ∨ 2 ^ 63 < text.whole then none else some (-text.whole)
  else if text.whole < 2 ^ 64 then some text.whole
  else none

/-- The number that `serde_json` reads, an `f64` where it keeps no integer. -/
def read (readFloat : NumberText → Double) (text : NumberText) : Number :=
  match text.integer with
  | some value => if value < 0 then .negInt value else .posInt value.toNat
  | none => .float text.negative (readFloat text)

/-- `serde_json` keeps the same of both: the same integer, or else the same sign and one `f64`. -/
def SpelledAlike (readFloat : NumberText → Double) (left right : NumberText) : Prop :=
  left.integer = right.integer ∧
    (left.integer = none → left.negative = right.negative ∧ readFloat left = readFloat right)

/-- As far as the spelling goes: the same integer is kept, or none, and then the signs agree. -/
def SameKind (left right : NumberText) : Prop :=
  left.integer = right.integer ∧ (left.integer = none → left.negative = right.negative)

private theorem fractionValue_nonneg (digits : List (Fin 10)) : 0 ≤ fractionValue digits := by
  induction digits with
  | nil => exact le_rfl
  | cons digit rest ih =>
    rw [fractionValue]
    positivity

/-- The magnitude a number text spells is never negative. -/
theorem magnitude_nonneg (text : NumberText) : 0 ≤ text.magnitude := by
  have fraction := fractionValue_nonneg (text.fraction.getD [])
  rw [magnitude]
  positivity

end NumberText

/-- A part of a body that holds no other. -/
inductive TextScalar where
  | null
  | bool (value : Bool)
  | number (text : NumberText)
  | string (value : String)

/-- A body: what it says, its members in the order it has them and its numbers as it spells them. -/
abbrev JsonText := Tree String TextScalar

def Scalar.json : Scalar → Json
  | .null => .null
  | .bool value => .bool value
  | .number value => .number value
  | .string value => .string value

private theorem Scalar.tree_json (scalar : Scalar) : scalar.json.tree = .atom scalar := by
  cases scalar <;> rfl

namespace TextScalar

def read (readFloat : NumberText → Double) : TextScalar → Scalar
  | null => .null
  | bool value => .bool value
  | number text => .number (text.read readFloat)
  | string value => .string value

def InRange : TextScalar → Prop
  | number text => text.InRange
  | _ => True

def SpelledAlike (readFloat : NumberText → Double) : TextScalar → TextScalar → Prop
  | number left, number right => left.SpelledAlike readFloat right
  | _, _ => True

def SameKind : TextScalar → TextScalar → Prop
  | number left, number right => left.SameKind right
  | _, _ => True

end TextScalar

namespace JsonText

mutual

/-- The value that `serde_json` makes of a body. -/
def read (readFloat : NumberText → Double) : JsonText → Json
  | .atom scalar => (scalar.read readFloat).json
  | .list items => .array (readItems readFloat items)
  | .record members => .object (readMembers readFloat members)

def readItems (readFloat : NumberText → Double) : List JsonText → List Json
  | [] => []
  | item :: rest => read readFloat item :: readItems readFloat rest

def readMembers (readFloat : NumberText → Double) : List (String × JsonText) → List (String × Json)
  | [] => []
  | (key, value) :: rest => (key, read readFloat value) :: readMembers readFloat rest

end

/-- The body without the members of some names, if it is an object. -/
def without (names : List String) : JsonText → JsonText
  | .record members => .record (members.filter fun entry => entry.1 ∉ names)
  | other => other

/-- A response without what differs between honest indexers. -/
def withoutVolatile (text : JsonText) : JsonText :=
  match without ["extensions", "headers"] text with
  | .record members => .record (members.map fun entry =>
      if entry.1 = "data" then (entry.1, without ["_meta"] entry.2) else entry)
  | other => other

/-- Distinct names, and numbers in the range of doubles. -/
structure IJson (text : JsonText) : Prop where
  distinct : text.Distinct
  numbers : text.All TextScalar.InRange

/-- Wherever both bodies have a number it is spelled alike. -/
def SpelledAlike (readFloat : NumberText → Double) (left right : JsonText) : Prop :=
  left.Matches (TextScalar.SpelledAlike readFloat) right

/-- Wherever both bodies have a number it is of one kind. -/
def SameKinds (left right : JsonText) : Prop := left.Matches TextScalar.SameKind right

variable {readFloat : NumberText → Double}

private theorem readItems_eq (items : List JsonText) :
    readItems readFloat items = items.map (read readFloat) := by
  induction items with
  | nil => rfl
  | cons item rest ih => rw [readItems, ih, List.map_cons]

private theorem readMembers_eq (members : List (String × JsonText)) :
    readMembers readFloat members = members.map fun entry => (entry.1, read readFloat entry.2) := by
  induction members with
  | nil => rfl
  | cons entry rest ih => rw [readMembers, ih, List.map_cons]

/-- The value is written as the body is with its scalars read. -/
theorem text_read (spelling : Spelling String Scalar Char) (le : String → String → Prop)
    [DecidableRel le] (text : JsonText) : (read readFloat text).tree.text spelling le =
      text.text (spelling.comap (TextScalar.read readFloat)) le := by
  induction text using Tree.induction with
  | atom scalar =>
    rw [read, Scalar.tree_json]
    rfl
  | list items ih =>
    rw [read, Json.tree, Json.treeItems_eq, readItems_eq, Tree.text, Tree.text, Tree.textItems_eq,
      Tree.textItems_eq, List.map_map, List.map_map, ← List.map_congr_left ih]
    rfl
  | record members ih =>
    have texts : members.map (fun entry => (entry.1, (read readFloat entry.2).tree.text spelling le)) =
        members.map fun entry =>
          (entry.1, entry.2.text (spelling.comap (TextScalar.read readFloat)) le) :=
      List.map_congr_left fun entry member => Prod.ext rfl (ih entry member)
    rw [read, Json.tree, Json.treeMembers_eq, readMembers_eq, Tree.text, Tree.text,
      Tree.textMembers_eq, Tree.textMembers_eq, ← texts, List.map_map, List.map_map]
    rfl

/-- A text without duplicate names is read as a well-formed value. -/
theorem wellFormed_read {text : JsonText} (distinct : text.Distinct) :
    (read readFloat text).WellFormed := by
  induction text using Tree.induction with
  | atom scalar =>
    rw [read, Json.WellFormed, Scalar.tree_json]
    trivial
  | list items ih =>
    have inside := Tree.distinctItems_iff.mp distinct
    rw [read, Json.WellFormed, Json.tree, Json.treeItems_eq, readItems_eq, Tree.Distinct,
      Tree.distinctItems_iff, List.map_map, List.forall_mem_map]
    exact fun item member => ih item member (inside item member)
  | record members ih =>
    have inside := Tree.distinctMembers_iff.mp distinct.2
    rw [read, readMembers_eq]
    refine Json.wellFormed_object.mpr ⟨?_, ?_⟩
    · rw [List.map_map]
      exact distinct.1
    · rw [List.forall_mem_map]
      exact fun entry member => ih entry member (inside entry member)

/-- Dropping members commutes with reading the text. -/
theorem read_without (names : List String) (text : JsonText) :
    read readFloat (without names text) = (read readFloat text).without names := by
  cases text with
  | atom scalar => cases scalar <;> rfl
  | list items => rfl
  | record members =>
    rw [without, read, read, Json.without, readMembers_eq, readMembers_eq, List.filter_map]
    rfl

/-- Members can be left out of the body or of the value. -/
theorem read_withoutVolatile (text : JsonText) :
    read readFloat (withoutVolatile text) = (read readFloat text).withoutVolatile := by
  rw [withoutVolatile, Json.withoutVolatile, ← read_without]
  cases without ["extensions", "headers"] text with
  | atom scalar => cases scalar <;> rfl
  | list items => rfl
  | record members =>
    rw [read, read, readMembers_eq, readMembers_eq, Json.object.injEq, List.map_map, List.map_map]
    refine List.map_congr_left fun entry _ => ?_
    dsimp only [Function.comp_apply, underData]
    split
    · rw [read_without]
    · rfl

/-- Dropping members leaves no duplicate names. -/
theorem distinct_without {text : JsonText} (distinct : text.Distinct) (names : List String) :
    (without names text).Distinct := by
  cases text with
  | atom scalar => exact distinct
  | list items => exact distinct
  | record members =>
    refine ⟨distinct.1.sublist (List.filter_sublist.map Prod.fst), Tree.distinctMembers_iff.mpr ?_⟩
    exact fun entry member =>
      Tree.distinctMembers_iff.mp distinct.2 entry (List.mem_of_mem_filter member)

/-- A text keeps distinct names without its volatile members. -/
theorem distinct_withoutVolatile {text : JsonText} (distinct : text.Distinct) :
    (withoutVolatile text).Distinct := by
  have outer := distinct_without distinct ["extensions", "headers"]
  rw [withoutVolatile]
  cases kept : without ["extensions", "headers"] text with
  | atom scalar => exact trivial
  | list items =>
    rw [kept] at outer
    exact outer
  | record members =>
    rw [kept] at outer
    have names : (members.map fun entry => if entry.1 = "data" then
        (entry.1, without ["_meta"] entry.2) else entry).map Prod.fst = members.map Prod.fst := by
      rw [List.map_map]
      refine List.map_congr_left fun entry _ => ?_
      rw [Function.comp_apply]
      split <;> rfl
    refine ⟨names ▸ outer.1, Tree.distinctMembers_iff.mpr (List.forall_mem_map.mpr ?_)⟩
    intro entry member
    have inner := Tree.distinctMembers_iff.mp outer.2 entry member
    split
    · exact distinct_without inner _
    · exact inner

private theorem all_without {property : TextScalar → Prop} {text : JsonText}
    (all : text.All property)
    (names : List String) : (without names text).All property := by
  cases text with
  | atom scalar => exact all
  | list items => exact all
  | record members =>
    refine Tree.allMembers_iff.mpr fun entry member => ?_
    exact Tree.allMembers_iff.mp all entry (List.mem_of_mem_filter member)

/-- What holds of every scalar of a text holds of those left without the volatile members. -/
theorem all_withoutVolatile {property : TextScalar → Prop} {text : JsonText}
    (all : text.All property) : (withoutVolatile text).All property := by
  have outer := all_without all ["extensions", "headers"]
  rw [withoutVolatile]
  cases kept : without ["extensions", "headers"] text with
  | atom scalar =>
    rw [kept] at outer
    exact outer
  | list items =>
    rw [kept] at outer
    exact outer
  | record members =>
    rw [kept] at outer
    refine Tree.allMembers_iff.mpr (List.forall_mem_map.mpr fun entry member => ?_)
    have inner := Tree.allMembers_iff.mp outer entry member
    split
    · exact all_without inner _
    · exact inner

end JsonText

end Foghorn.Core
