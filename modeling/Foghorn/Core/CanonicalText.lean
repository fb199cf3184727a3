import Foghorn.Std.Lexeme
import Foghorn.Core.Decimal
import Foghorn.Core.Normalize

/-!
# The canonical text identifies the data

A JSON value is a tree over scalars, and `jcs_serialize` writes the canonical text of that
tree. So two answers have one canonical text exactly when they are the same data, whatever
the nesting, and stripping takes the volatile members away and nothing else.
-/

namespace Foghorn.Core

open Foghorn.Std

/-- A JSON value that holds no other. -/
inductive Scalar where
  | null
  | bool (value : Bool)
  | number (value : Number)
  | string (value : String)

namespace Json

/-- Induction over a value: an array from its items, an object from its members. -/
theorem induction {motive : Json → Prop} (null : motive .null) (bool : ∀ value, motive (.bool value))
    (number : ∀ value, motive (.number value)) (string : ∀ value, motive (.string value))
    (array : ∀ items, (∀ item ∈ items, motive item) → motive (.array items))
    (object : ∀ members, (∀ entry ∈ members, motive entry.2) → motive (.object members))
    (value : Json) : motive value := by
  refine @Json.rec motive (fun items => ∀ item ∈ items, motive item)
    (fun members => ∀ entry ∈ members, motive entry.2) (fun entry => motive entry.2)
    null bool number string array object ?_ ?_ ?_ ?_ ?_ value
  · intro item member
    cases member
  · intro item rest first others
    exact List.forall_mem_cons.mpr ⟨first, others⟩
  · intro entry member
    cases member
  · intro entry rest first others
    exact List.forall_mem_cons.mpr ⟨first, others⟩
  · intro _ _ held
    exact held

mutual

def tree : Json → Tree String Scalar
  | .null => .atom .null
  | .bool value => .atom (.bool value)
  | .number value => .atom (.number value)
  | .string value => .atom (.string value)
  | .array items => .list (treeItems items)
  | .object members => .record (treeMembers members)

def treeItems : List Json → List (Tree String Scalar)
  | [] => []
  | item :: rest => tree item :: treeItems rest

def treeMembers : List (String × Json) → List (String × Tree String Scalar)
  | [] => []
  | (key, value) :: rest => (key, tree value) :: treeMembers rest

end

/-- A `serde_json::Map` has one member of each name. -/
def WellFormed (value : Json) : Prop := value.tree.Distinct

/-- The tree of a list is the list of its trees. -/
theorem treeItems_eq (items : List Json) : treeItems items = items.map tree := by
  induction items with
  | nil => rfl
  | cons item rest ih => rw [treeItems, ih, List.map_cons]

/-- The tree of the members keeps their names. -/
theorem treeMembers_eq (members : List (String × Json)) :
    treeMembers members = members.map fun entry => (entry.1, entry.2.tree) := by
  induction members with
  | nil => rfl
  | cons entry rest ih => rw [treeMembers, ih, List.map_cons]

/-- An object is well formed when its names differ and its values are well formed. -/
theorem wellFormed_object {members : List (String × Json)} :
    (object members).WellFormed ↔
      (members.map Prod.fst).Nodup ∧ ∀ entry ∈ members, entry.2.WellFormed := by
  rw [WellFormed, tree, treeMembers_eq, Tree.Distinct, Tree.distinctMembers_iff,
    List.forall_mem_map, List.map_map]
  rfl

end Json

section Spelling

/-- JSON text with the given texts of numbers and strings. -/
def jsonSpelling (number : Number → String) (quote : String → String) :
    Spelling String Scalar Char where
  atom
    | .null => "null".toList
    | .bool value => (if value then "true" else "false").toList
    | .number value => (number value).toList
    | .string value => (quote value).toList
  name key := (quote key).toList ++ [':']
  openList := '['
  closeList := ']'
  openRecord := '{'
  closeRecord := '}'
  separator := ','

/-- Strings are JSON strings, one for each text. -/
structure Quotes (quote : String → String) : Prop where
  quoted : ∀ text, QuotedWord (quote text).toList
  injective : Function.Injective quote

variable {number : Number → String} {quote : String → String}

/-- An atom is a plain word unless it is a string. -/
theorem atom_plain (numbers : ∀ value, NumberWord (number value).toList) {value : Scalar}
    (other : ∀ text, value ≠ .string text) : PlainWord ((jsonSpelling number quote).atom value) := by
  cases value with
  | null => exact ⟨by simp [jsonSpelling], by simp [jsonSpelling, jsonPunctuation]⟩
  | bool value =>
    cases value <;> exact ⟨by simp [jsonSpelling], by simp [jsonSpelling, jsonPunctuation]⟩
  | number value => exact (numbers value).plain
  | string value => exact absurd rfl (other value)

/-- A scalar is spelled as a plain word or as a quoted one. -/
theorem atom_word (numbers : ∀ value, NumberWord (number value).toList) (quotes : Quotes quote)
    (value : Scalar) : PlainWord ((jsonSpelling number quote).atom value) ∨
      QuotedWord ((jsonSpelling number quote).atom value) := by
  cases value with
  | string value => exact .inr (quotes.quoted value)
  | null => exact .inl (atom_plain numbers (by simp))
  | bool value => exact .inl (atom_plain numbers (by simp))
  | number value => exact .inl (atom_plain numbers (by simp))

/-- A number is written like no other atom. -/
theorem atom_number_ne (numbers : ∀ value, NumberWord (number value).toList) (quotes : Quotes quote)
    (value : Number) {other : Scalar} (kind : ∀ partner, other ≠ .number partner) :
    (jsonSpelling number quote).atom (.number value) ≠ (jsonSpelling number quote).atom other := by
  have word := numbers value
  cases other with
  | null => exact word.ne_of_mem (c := 'n') (by simp [jsonSpelling]) rfl
  | bool partner =>
    cases partner with
    | true => exact word.ne_of_mem (c := 't') (by simp [jsonSpelling]) rfl
    | false => exact word.ne_of_mem (c := 'f') (by simp [jsonSpelling]) rfl
  | number partner => exact absurd rfl (kind partner)
  | string text => exact word.plain.ne (quotes.quoted text)

/-- So is a string. -/
theorem atom_string_ne (numbers : ∀ value, NumberWord (number value).toList) (quotes : Quotes quote)
    (text : String) {other : Scalar} (kind : ∀ partner, other ≠ .string partner) :
    (jsonSpelling number quote).atom (.string text) ≠ (jsonSpelling number quote).atom other :=
  ((atom_plain numbers kind).ne (quotes.quoted text)).symm

/-- With number words and quoted strings the spelling of a value is unambiguous. -/
theorem jsonSpelling_clear (numbers : ∀ value, NumberWord (number value).toList)
    (quotes : Quotes quote) : (jsonSpelling number quote).Clear where
  atom left right := by
    have ends : (jsonSpelling number quote).ends ⊆ jsonPunctuation := by
      simp [Spelling.ends, jsonSpelling, jsonPunctuation]
    rcases atom_word numbers quotes left with plain | quoted
    · rcases atom_word numbers quotes right with others | others
      · exact plain.readsAs others ends
      · exact fun rest more _ _ same => absurd same (plain.ne_quoted others)
    · rcases atom_word numbers quotes right with others | others
      · exact fun rest more _ _ same => absurd same.symm (others.ne_quoted quoted)
      · exact fun rest more _ _ same => quoted.append_inj others same
  atomOpens value := by
    rcases atom_word numbers quotes value with plain | ⟨body, _, quoted⟩
    · obtain ⟨c, tail, begins, clear⟩ := plain.head
      refine ⟨c, tail, begins, ?_, ?_, ?_⟩ <;> rintro rfl <;>
        exact clear (by simp [jsonSpelling, jsonPunctuation])
    · exact ⟨'"', _, quoted, by simp [jsonSpelling], by simp [jsonSpelling], by simp [jsonSpelling]⟩
  name left right rest more same := by
    simp only [jsonSpelling, List.append_assoc] at same
    have quoted := (quotes.quoted left).append_inj (quotes.quoted right) same
    exact quotes.injective (String.toList_injective quoted)
  nameOpens key := by
    obtain ⟨body, _, quoted⟩ := quotes.quoted key
    refine ⟨'"', body ++ ['"', ':'], ?_, by simp [jsonSpelling]⟩
    simp [jsonSpelling, quoted]
  openings := by simp [jsonSpelling]
  listOpening := by simp [jsonSpelling]
  recordOpening := by simp [jsonSpelling]
  listSeparator := by simp [jsonSpelling]
  recordSeparator := by simp [jsonSpelling]

end Spelling

section Canonical

variable (crates : Crates)

/-- What the code relies on when it prints: strings are JSON strings, one for each text, and
floats are numbers. -/
structure Crates.PrintsJson : Prop where
  quotes : Quotes crates.quote
  float : ∀ negative magnitude, NumberWord (crates.showFloat negative magnitude).toList

def Crates.spelling : Spelling String Scalar Char :=
  jsonSpelling (Number.render crates) crates.quote

private theorem jcsItems_eq (items : List Json) :
    jcsItems crates items = items.map (jcsSerialize crates) := by
  induction items with
  | nil => rfl
  | cons item rest ih => rw [jcsItems, ih, List.map_cons]

private theorem jcsMembers_eq (members : List (String × Json)) :
    jcsMembers crates members = members.map fun entry => (entry.1, jcsSerialize crates entry.2) := by
  induction members with
  | nil => rfl
  | cons entry rest ih => rw [jcsMembers, ih, List.map_cons]

/-- `jcs_serialize` writes the canonical text of the tree. -/
theorem toList_jcsSerialize (value : Json) :
    (jcsSerialize crates value).toList = value.tree.text crates.spelling (· ≤ ·) := by
  induction value using Json.induction with
  | null => rfl
  | bool value => rfl
  | number value => rfl
  | string value => rfl
  | array items ih =>
    have texts : items.map (String.toList ∘ jcsSerialize crates) =
        items.map (Tree.text crates.spelling (· ≤ ·) ∘ Json.tree) := List.map_congr_left ih
    rw [jcsSerialize, Json.tree, Tree.text, Tree.textItems_eq, Json.treeItems_eq, jcsItems_eq,
      String.toList_append, String.toList_append, String.toList_intercalate, List.map_map,
      List.map_map, texts]
    rfl
  | object members ih =>
    -- The members are sorted with their texts, as strings here and as characters there.
    have sorted : (Tree.sortMembers (· ≤ ·) (jcsMembers crates members)).map
          (fun entry => (entry.1, entry.2.toList)) =
        Tree.sortMembers (· ≤ ·) (Tree.textMembers crates.spelling (· ≤ ·)
          (Json.treeMembers members)) := by
      rw [Tree.map_sortMembers, jcsMembers_eq, Json.treeMembers_eq, Tree.textMembers_eq,
        List.map_map, List.map_map]
      refine congrArg _ (List.map_congr_left fun entry member => ?_)
      exact Prod.ext rfl (ih entry member)
    rw [jcsSerialize, Json.tree, Tree.text, ← sorted, String.toList_append, String.toList_append,
      String.toList_intercalate, List.map_map, List.map_map]
    simp [Crates.spelling, jsonSpelling, Tree.memberText, Tree.sortMembers, Function.comp_def]

end Canonical

section Volatile

/-- The value without the members of some names, if it is an object. -/
def Json.without (names : List String) : Json → Json
  | .object members => .object (members.filter fun entry => entry.1 ∉ names)
  | other => other

/-- A member with a changed value if it is the one under `data`. -/
def underData (change : Json → Json) (entry : String × Json) : String × Json :=
  if entry.1 = "data" then (entry.1, change entry.2) else entry

/-- A response without what differs between honest indexers: its members `extensions` and
`headers`, and the member `_meta` of an object under `data`. -/
def Json.withoutVolatile (value : Json) : Json :=
  match value.without ["extensions", "headers"] with
  | .object members => .object (members.map (underData (without ["_meta"])))
  | other => other

variable {members : List (String × Json)} {key : String}

/-- Removing a member that is not there changes nothing. -/
theorem removeMember_of_absent (absent : ∀ entry ∈ members, entry.1 ≠ key) :
    Json.removeMember members key = members := by
  have missing : members.findIdx? (fun entry => entry.1 = key) = none := by
    rw [List.findIdx?_eq_none_iff]
    exact fun entry member => by simpa using absent entry member
  rw [Json.removeMember, missing]

/-- Removing the first member of a name moves the last member into its place. -/
theorem removeMember_append {before after : List (String × Json)} {value : Json}
    (absent : ∀ entry ∈ before, entry.1 ≠ key) :
    (Json.removeMember (before ++ (key, value) :: after) key).Perm (before ++ after) := by
  have position : (before ++ (key, value) :: after).findIdx? (fun entry => entry.1 = key) =
      some before.length := by
    have missing : before.findIdx? (fun entry => entry.1 = key) = none := by
      rw [List.findIdx?_eq_none_iff]
      exact fun entry member => by simpa using absent entry member
    simp [List.findIdx?_append, List.findIdx?_cons, missing]
  rcases List.eq_nil_or_concat after with rfl | ⟨inner, last, rfl⟩
  · simp [Json.removeMember, position]
  · rw [List.concat_eq_append] at position ⊢
    have final : (before ++ (key, value) :: (inner ++ [last])).getLast? = some last := by
      simp [List.getLast?_append, List.getLast?_cons]
    have moved : Json.removeMember (before ++ (key, value) :: (inner ++ [last])) key =
        before ++ last :: inner := by
      rw [Json.removeMember, position, final]
      simp [List.dropLast_cons_of_ne_nil]
    rw [moved]
    exact (List.perm_append_singleton last inner).symm.append_left before

/-- Removing a member takes it away and nothing else. -/
theorem removeMember_perm (distinct : (members.map Prod.fst).Nodup) :
    (Json.removeMember members key).Perm (members.filter fun entry => entry.1 ≠ key) := by
  by_cases present : ∃ entry ∈ members, entry.1 = key
  · obtain ⟨entry, member, rfl⟩ := present
    obtain ⟨before, after, rfl⟩ := List.append_of_mem member
    have others : ∀ other ∈ before ++ after, other.1 ≠ entry.1 := by
      intro other listed same
      rw [List.map_append, List.map_cons] at distinct
      have fresh := (List.nodup_cons.mp (List.perm_middle.nodup_iff.mp distinct)).1
      rw [← List.map_append] at fresh
      exact fresh (List.mem_map.mpr ⟨other, listed, same⟩)
    have kept : (before ++ entry :: after).filter (fun other => other.1 ≠ entry.1) =
        before ++ after := by
      have outside := List.filter_eq_self.mpr
        (fun other listed => decide_eq_true (others other listed))
      rw [List.filter_append] at outside ⊢
      rw [List.filter_cons_of_neg (by simp)]
      exact outside
    rw [kept]
    exact removeMember_append fun other listed => others other (List.mem_append_left _ listed)
  · have absent : ∀ entry ∈ members, entry.1 ≠ key := fun entry member same =>
      present ⟨entry, member, same⟩
    rw [removeMember_of_absent absent, List.filter_eq_self.mpr (by simpa using absent)]

/-- `Map::remove` on a value that may be an object. -/
def Json.remove (key : String) : Json → Json
  | .object members => .object (Json.removeMember members key)
  | other => other

/-- Stripping drops `extensions` and `headers`, and `_meta` inside `data`. -/
theorem stripVolatile_object (members : List (String × Json)) :
    stripVolatile (.object members) =
      .object ((Json.removeMember (Json.removeMember members "extensions") "headers").map
        (underData (Json.remove "_meta"))) := by
  rw [stripVolatile, Json.object.injEq]
  apply List.map_congr_left
  rintro ⟨name, value⟩ _
  dsimp only [underData]
  split
  · rename_i inner same
    obtain ⟨rfl, rfl⟩ := Prod.mk.inj same
    rfl
  · rename_i other
    by_cases data : name = "data"
    · subst data
      cases value with
      | object inner => exact absurd rfl (other inner)
      | null => rfl
      | bool value => rfl
      | number value => rfl
      | string value => rfl
      | array items => rfl
    · rw [if_neg data]

private theorem removeMember_nodup (distinct : (members.map Prod.fst).Nodup) :
    ((Json.removeMember members key).map Prod.fst).Nodup := by
  rw [((removeMember_perm distinct).map Prod.fst).nodup_iff]
  exact distinct.sublist (List.filter_sublist.map Prod.fst)

/-- Removing a member keeps every other one. -/
theorem mem_removeMember (distinct : (members.map Prod.fst).Nodup) {entry : String × Json} :
    entry ∈ Json.removeMember members key ↔ entry ∈ members ∧ entry.1 ≠ key := by
  rw [(removeMember_perm distinct).mem_iff, List.mem_filter, decide_eq_true_iff]

/-- The members that are left of a response. -/
theorem removeVolatile_perm (distinct : (members.map Prod.fst).Nodup) :
    (Json.removeMember (Json.removeMember members "extensions") "headers").Perm
      (members.filter fun entry => entry.1 ∉ ["extensions", "headers"]) := by
  refine (removeMember_perm (removeMember_nodup distinct)).trans ?_
  refine ((removeMember_perm distinct).filter _).trans ?_
  rw [List.filter_filter]
  refine .of_eq (List.filter_congr fun entry _ => ?_)
  simp [Bool.and_comm]

private theorem map_underData (change : Json → Json) (members : List (String × Json)) :
    (members.map (underData change)).map Prod.fst = members.map Prod.fst := by
  rw [List.map_map]
  refine List.map_congr_left fun entry _ => ?_
  rw [Function.comp_apply, underData]
  split <;> rfl

variable {crates : Crates}

/-- The text of an object does not depend on the order of its members. -/
theorem jcsSerialize_of_perm {others : List (String × Json)} (distinct : (members.map Prod.fst).Nodup)
    (perm : (members.map fun entry => (entry.1, jcsSerialize crates entry.2)).Perm
      (others.map fun entry => (entry.1, jcsSerialize crates entry.2))) :
    jcsSerialize crates (.object members) = jcsSerialize crates (.object others) := by
  apply String.toList_injective
  rw [toList_jcsSerialize, toList_jcsSerialize, Json.tree, Json.tree, Json.treeMembers_eq,
    Json.treeMembers_eq]
  refine Tree.text_record_of_perm ?_ ?_
  · rw [List.map_map]
    exact distinct
  · rw [List.map_map, List.map_map]
    have texts := perm.map fun entry => (entry.1, entry.2.toList)
    simpa [Function.comp_def, toList_jcsSerialize] using texts

/-- The canonical text without a member does not depend on how the member was removed. -/
theorem jcsSerialize_remove {value : Json} (formed : value.WellFormed) (key : String) :
    jcsSerialize crates (value.remove key) = jcsSerialize crates (value.without [key]) := by
  cases value with
  | object members =>
    have distinct := (Json.wellFormed_object.mp formed).1
    refine jcsSerialize_of_perm (removeMember_nodup distinct) (List.Perm.map _ ?_)
    simpa using removeMember_perm distinct
  | null => rfl
  | bool value => rfl
  | number value => rfl
  | string value => rfl
  | array items => rfl

/-- The canonical text after stripping is that of the value without its volatile members. -/
theorem jcsSerialize_stripVolatile {value : Json} (formed : value.WellFormed) :
    jcsSerialize crates (stripVolatile value) = jcsSerialize crates value.withoutVolatile := by
  cases value with
  | object members =>
    obtain ⟨distinct, inside⟩ := Json.wellFormed_object.mp formed
    have kept : ((Json.removeMember (Json.removeMember members "extensions") "headers").map
        Prod.fst).Nodup := removeMember_nodup (removeMember_nodup distinct)
    rw [stripVolatile_object]
    refine jcsSerialize_of_perm ((map_underData _ _).symm ▸ kept) ?_
    have texts : ∀ entry ∈ members,
        ((underData (Json.remove "_meta") entry).1,
          jcsSerialize crates (underData (Json.remove "_meta") entry).2) =
        ((underData (Json.without ["_meta"]) entry).1,
          jcsSerialize crates (underData (Json.without ["_meta"]) entry).2) := by
      intro entry member
      unfold underData
      split
      · rw [jcsSerialize_remove (inside entry member) "_meta"]
      · rfl
    have left := removeVolatile_perm distinct
    rw [List.map_map, List.map_map]
    refine .trans (.of_eq (List.map_congr_left fun entry member => ?_)) (left.map _)
    exact texts entry (List.mem_of_mem_filter (left.mem_iff.mp member))
  | null => rfl
  | bool value => rfl
  | number value => rfl
  | string value => rfl
  | array items => rfl

private theorem remove_remove {value : Json} (formed : value.WellFormed) (key : String) :
    (value.remove key).remove key = value.remove key := by
  cases value with
  | object members =>
    have distinct := (Json.wellFormed_object.mp formed).1
    exact congrArg Json.object (removeMember_of_absent fun entry member =>
      ((mem_removeMember distinct).mp member).2)
  | null => rfl
  | bool value => rfl
  | number value => rfl
  | string value => rfl
  | array items => rfl

/-- Stripping a second time finds nothing to strip. -/
theorem stripVolatile_idem {value : Json} (formed : value.WellFormed) :
    stripVolatile (stripVolatile value) = stripVolatile value := by
  cases value with
  | object members =>
    obtain ⟨distinct, inside⟩ := Json.wellFormed_object.mp formed
    have left := removeVolatile_perm distinct
    rw [stripVolatile_object, stripVolatile_object]
    generalize Json.removeMember (Json.removeMember members "extensions") "headers" = kept at left
    have absent (name : String) (volatile : name ∈ ["extensions", "headers"]) :
        ∀ entry ∈ kept.map (underData (Json.remove "_meta")), entry.1 ≠ name := by
      rintro entry member rfl
      have names := List.mem_map_of_mem (f := Prod.fst) member
      rw [map_underData] at names
      obtain ⟨old, among, same⟩ := List.mem_map.mp names
      have outside := (List.mem_filter.mp (left.mem_iff.mp among)).2
      rw [same] at outside
      exact of_decide_eq_true outside volatile
    rw [removeMember_of_absent (absent "extensions" (by simp)),
      removeMember_of_absent (absent "headers" (by simp)), List.map_map]
    refine congrArg Json.object (List.map_congr_left fun entry member => ?_)
    have valued := inside entry (List.mem_of_mem_filter (left.mem_iff.mp member))
    by_cases data : entry.1 = "data"
    · simp [underData, data, remove_remove valued]
    · simp [underData, data]
  | null => rfl
  | bool value => rfl
  | number value => rfl
  | string value => rfl
  | array items => rfl

/-- A well-formed value stays so without some of its members. -/
theorem wellFormed_without {value : Json} (formed : value.WellFormed) (names : List String) :
    (value.without names).WellFormed := by
  cases value with
  | object members =>
    obtain ⟨distinct, inside⟩ := Json.wellFormed_object.mp formed
    exact Json.wellFormed_object.mpr ⟨distinct.sublist (List.filter_sublist.map Prod.fst),
      fun entry member => inside entry (List.mem_of_mem_filter member)⟩
  | null => exact formed
  | bool value => exact formed
  | number value => exact formed
  | string value => exact formed
  | array items => exact formed

private theorem wellFormed_withoutVolatile {value : Json} (formed : value.WellFormed) :
    value.withoutVolatile.WellFormed := by
  have outer := wellFormed_without formed ["extensions", "headers"]
  rw [Json.withoutVolatile]
  split
  · rename_i members same
    rw [same] at outer
    obtain ⟨distinct, inside⟩ := Json.wellFormed_object.mp outer
    refine Json.wellFormed_object.mpr ⟨(map_underData _ _).symm ▸ distinct, fun entry member => ?_⟩
    obtain ⟨old, among, rfl⟩ := List.mem_map.mp member
    unfold underData
    split
    · exact wellFormed_without (inside old among) _
    · exact inside old among
  · exact outer

end Volatile

section Identifies

variable (crates : Crates)

/-- Scalars that are the same, numbers taken as what is printed of them. -/
def Scalar.SameToken : Scalar → Scalar → Prop
  | .number left, .number right => left.render crates = right.render crates
  | left, right => left = right

/-- Values that are the same up to the order of members, numbers taken as what is printed. -/
def Json.SameData (left right : Json) : Prop :=
  left.tree.Matches (Scalar.SameToken crates) right.tree

variable {crates}

/-- A decimal numeral is a number word. -/
theorem numberWord_digits (number : Nat) : NumberWord number.repr.toList where
  nonempty := by
    rw [Nat.toList_repr]
    exact Nat.toDigits_ne_nil
  decimal c member := by
    rw [Nat.toList_repr] at member
    simp [isNumberChar, isDigit_of_mem_toDigits member]

/-- An integer is printed as a number word. -/
theorem numberWord_repr (number : Int) : NumberWord number.repr.toList := by
  rw [Int.repr_eq_if]
  split
  · exact numberWord_digits _
  · have digits := numberWord_digits (-number).toNat
    refine ⟨by simp, fun c member => ?_⟩
    rw [String.toList_append] at member
    rcases List.mem_append.mp member with sign | digit
    · obtain rfl : c = '-' := by simpa using sign
      rfl
    · exact digits.decimal c digit

/-- Numbers are printed as numbers. -/
theorem numberWord_render (prints : crates.PrintsJson) (number : Number) :
    NumberWord (number.render crates).toList := by
  cases number with
  | posInt value => exact numberWord_digits value
  | negInt value => exact numberWord_repr value
  | float negative magnitude => exact prints.float negative magnitude

/-- Printing as JSON prescribes gives an unambiguous spelling. -/
theorem spelling_clear (prints : crates.PrintsJson) : crates.spelling.Clear :=
  jsonSpelling_clear (numberWord_render prints) prints.quotes

/-- Two scalars are printed alike exactly when they are the same. -/
theorem atom_eq_iff (prints : crates.PrintsJson) (left right : Scalar) :
    crates.spelling.atom left = crates.spelling.atom right ↔ left.SameToken crates right := by
  have numberNe (value : Number) {other : Scalar} (kind : ∀ partner, other ≠ .number partner) :
      crates.spelling.atom (.number value) ≠ crates.spelling.atom other :=
    atom_number_ne (numberWord_render prints) prints.quotes value kind
  have stringNe (text : String) {other : Scalar} (kind : ∀ partner, other ≠ .string partner) :
      crates.spelling.atom (.string text) ≠ crates.spelling.atom other :=
    atom_string_ne (numberWord_render prints) prints.quotes text kind
  have sameToken {other : Scalar} (kind : ∀ partner, other ≠ .number partner) :
      other.SameToken crates right ↔ other = right := by
    cases other <;> first | rfl | exact absurd rfl (kind _)
  cases left with
  | number value =>
    cases right with
    | number partner => exact String.toList_inj
    | _ => exact iff_of_false (numberNe value (by simp)) (by simp [Scalar.SameToken])
  | string text =>
    rw [sameToken (by simp)]
    cases right with
    | string partner =>
      rw [Scalar.string.injEq, ← prints.quotes.injective.eq_iff]
      exact String.toList_inj
    | _ => exact iff_of_false (stringNe text (by simp)) (by simp)
  | null =>
    rw [sameToken (by simp)]
    cases right with
    | null => exact iff_of_true rfl rfl
    | bool partner => cases partner <;> simp [Crates.spelling, jsonSpelling]
    | number partner => exact iff_of_false (numberNe partner (by simp)).symm (by simp)
    | string partner => exact iff_of_false (stringNe partner (by simp)).symm (by simp)
  | bool value =>
    rw [sameToken (by simp)]
    cases right with
    | null => cases value <;> simp [Crates.spelling, jsonSpelling]
    | bool partner => cases value <;> cases partner <;> simp [Crates.spelling, jsonSpelling]
    | number partner => exact iff_of_false (numberNe partner (by simp)).symm (by simp)
    | string partner => exact iff_of_false (stringNe partner (by simp)).symm (by simp)

/-- The canonical text identifies the data: two answers have one text exactly when they are
the same up to the order of members without their volatile members, and stripping them again
changes nothing. -/
theorem canonical_text_iff (prints : crates.PrintsJson) :
    (∀ left right : Json, left.WellFormed → right.WellFormed →
      (jcsSerialize crates (stripVolatile left) = jcsSerialize crates (stripVolatile right) ↔
        left.withoutVolatile.SameData crates right.withoutVolatile)) ∧
    ∀ value : Json, value.WellFormed → stripVolatile (stripVolatile value) = stripVolatile value := by
  refine ⟨fun left right formed rightFormed => ?_, fun value formed => stripVolatile_idem formed⟩
  rw [jcsSerialize_stripVolatile formed, jcsSerialize_stripVolatile rightFormed,
    ← String.toList_inj, toList_jcsSerialize, toList_jcsSerialize,
    Tree.text_eq_iff (spelling_clear prints) (wellFormed_withoutVolatile formed), Json.SameData]
  simp only [atom_eq_iff prints]

end Identifies

section Sample

/-- Crates that write strings as `serde_json` does, and one half as it does. -/
def Crates.writing (parses : List (String × Json)) (digests : List (String × String)) : Crates :=
  { Crates.knowing parses digests with quote := quoteText, showFloat := fun _ _ => "0.5" }

/-- The sample crates print as JSON prescribes. -/
theorem printsJson_writing (parses : List (String × Json)) (digests : List (String × String)) :
    (Crates.writing parses digests).PrintsJson where
  quotes := ⟨quoteText_quoted, quoteText_injective⟩
  float _ _ := ⟨by simp [Crates.writing], by simp [Crates.writing, isNumberChar]⟩

/-- A pool as one indexer answers, with its block and timing. -/
def samplePool : Json := .object [("extensions", .null),
  ("data", .object [("_meta", .number (.posInt 7)), ("tvl", .number (.float false (1 / 2))),
    ("id", .string "0xab")])]

/-- The same pool as another indexer answers. -/
def samplePoolReordered : Json := .object [("data", .object [("id", .string "0xab"),
  ("tvl", .number (.float false (1 / 2)))])]

/-- Two orders of the sample pool's members have one canonical text when their data agree. -/
theorem canonical_text_iff_samplePool :
    (jcsSerialize (Crates.writing [] []) (stripVolatile samplePool) =
        jcsSerialize (Crates.writing [] []) (stripVolatile samplePoolReordered) ↔
      samplePool.withoutVolatile.SameData (Crates.writing [] []) samplePoolReordered.withoutVolatile) ∧
      stripVolatile (stripVolatile samplePool) = stripVolatile samplePool := by
  have formed : samplePool.WellFormed := by
    simp [samplePool, Json.WellFormed, Json.tree, Json.treeMembers, Tree.Distinct, Tree.DistinctMembers]
  have reordered : samplePoolReordered.WellFormed := by
    simp [samplePoolReordered, Json.WellFormed, Json.tree, Json.treeMembers, Tree.Distinct,
      Tree.DistinctMembers]
  obtain ⟨identifies, idem⟩ := canonical_text_iff (printsJson_writing [] [])
  exact ⟨identifies samplePool samplePoolReordered formed reordered, idem samplePool formed⟩

/-- The two answers have one text. -/
example : jcsSerialize (Crates.writing [] []) (stripVolatile samplePool) =
    "\x7b\"data\":\x7b\"id\":\"0xab\",\"tvl\":0.5\x7d\x7d" := by
  decide

end Sample

end Foghorn.Core
