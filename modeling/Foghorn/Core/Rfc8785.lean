import Mathlib.Data.List.Lex
import Foghorn.Core.JsonText

/-!
# Against RFC 8785

RFC 8785 reads every number as the double nearest to it, so that `1`, `1.0` and `1e0` are one
number. Foghorn prints a number as `serde_json` keeps it: an integer as an integer, a float as the
`f64` that was read. Answers that are the same for the RFC have one hash exactly when each number
is spelled alike in both.
-/

namespace Foghorn.Core

open Foghorn.Std

section Names

/-- The UTF-16 code units of a character. -/
def utf16Units (c : Char) : List Nat :=
  if c.toNat < 0x10000 then [c.toNat]
  else [0xd800 + (c.toNat - 0x10000) / 0x400, 0xdc00 + (c.toNat - 0x10000) % 0x400]

def utf16 (text : String) : List Nat := text.toList.flatMap utf16Units

/-- The order in which RFC 8785 sorts names. -/
def utf16Le (left right : String) : Prop := utf16 left ≤ utf16 right

instance : DecidableRel utf16Le := fun left right => inferInstanceAs (Decidable (utf16 left ≤ utf16 right))

private theorem utf16Units_inj {c d : Char} {rest more : List Nat}
    (same : utf16Units c ++ rest = utf16Units d ++ more) : c = d := by
  have scalar (c : Char) : c.toNat < 0xd800 ∨ 0xdfff < c.toNat ∧ c.toNat < 0x110000 := c.valid
  have left := scalar c
  have right := scalar d
  unfold utf16Units at same
  split at same <;> split at same <;>
    simp only [List.cons_append, List.nil_append, List.cons.injEq] at same
  · exact Char.toNat_inj.mp same.1
  · omega
  · omega
  · exact Char.toNat_inj.mp (by omega)

private theorem utf16Units_ne_nil (c : Char) : utf16Units c ≠ [] := by
  unfold utf16Units
  split <;> simp

/-- A string is determined by its UTF-16 units. -/
theorem utf16_injective : Function.Injective utf16 := fun _ _ same =>
  String.toList_injective (flatMap_code_inj utf16Units_inj utf16Units_ne_nil same)

instance : Std.Total utf16Le := ⟨fun left right => le_total (utf16 left) (utf16 right)⟩

instance : IsTrans String utf16Le := ⟨fun _ _ _ first second => le_trans first second⟩

instance : Std.Antisymm utf16Le := ⟨fun _ _ first second => utf16_injective (le_antisymm first second)⟩

end Names

section Numbers

/-- The number that is held. -/
def Number.toRat : Number → ℚ
  | .posInt value => value
  | .negInt value => value
  | .float negative magnitude => if negative then -magnitude else magnitude

/-- What RFC 8785 reads: a number as the double nearest to what is spelled. -/
def TextScalar.nearest : TextScalar → Scalar
  | null => .null
  | bool value => .bool value
  | number text => .number (.float text.negative (roundToDouble text.magnitude))
  | string value => .string value

/-- What is known of how floats are printed: as no integer is, and each double in its own way. -/
structure Crates.PrintsFloats (crates : Crates) : Prop extends crates.PrintsJson where
  marked : ∀ negative magnitude, '.' ∈ (crates.showFloat negative magnitude).toList ∨
    'e' ∈ (crates.showFloat negative magnitude).toList
  distinct : ∀ negative otherNegative magnitude otherMagnitude, IsDouble magnitude →
    IsDouble otherMagnitude →
    crates.showFloat negative magnitude = crates.showFloat otherNegative otherMagnitude →
      negative = otherNegative ∧ magnitude = otherMagnitude

/-- `Number.prototype.toString` on finite doubles. -/
structure EcmaNumbers (showDouble : ℚ → String) : Prop where
  number : ∀ value, NumberWord (showDouble value).toList
  distinct : ∀ left right, IsDouble |left| → IsDouble |right| →
    showDouble left = showDouble right → left = right

/-- How RFC 8785 writes what a body says. -/
def rfcSpelling (showDouble : ℚ → String) (quote : String → String) :
    Spelling String TextScalar Char :=
  (jsonSpelling (fun number => showDouble number.toRat) quote).comap TextScalar.nearest

/-- The canonical form of RFC 8785. -/
def rfc8785 (showDouble : ℚ → String) (quote : String → String) (text : JsonText) : String :=
  String.ofList (text.text (rfcSpelling showDouble quote) utf16Le)

end Numbers

section SpelledAlike

variable {crates : Crates} {readFloat : NumberText → Double} {left right : NumberText}

/-- An integer that is kept is printed in decimal. -/
theorem render_integer {value : Int} (integer : left.integer = some value) :
    (left.read readFloat).render crates = value.repr := by
  rw [NumberText.read, integer]
  dsimp only
  split
  · rfl
  · next natural =>
    have same : (value.toNat : Int) = value := Int.toNat_of_nonneg (not_lt.mp natural)
    conv_rhs => rw [← same]
    rfl

/-- Any other number is printed as the `f64` that was read. -/
theorem render_float (fraction : left.integer = none) :
    (left.read readFloat).render crates = crates.showFloat left.negative (readFloat left) := by
  rw [NumberText.read, fraction]
  rfl

/-- An integer and a float are never printed alike. -/
theorem repr_ne_float (prints : crates.PrintsFloats) (value : Int) (negative : Bool)
    (magnitude : ℚ) : value.repr ≠ crates.showFloat negative magnitude := by
  intro same
  have point : '.' ∉ value.repr.toList := notMem_repr rfl (by decide) value
  have exponent : 'e' ∉ value.repr.toList := notMem_repr rfl (by decide) value
  rw [same] at point exponent
  exact (prints.marked negative magnitude).elim point exponent

/-- What is printed of a number tells how it was spelled. -/
theorem render_eq_iff (prints : crates.PrintsFloats) :
    (left.read readFloat).render crates = (right.read readFloat).render crates ↔
      left.SpelledAlike readFloat right := by
  cases integer : left.integer with
  | some value =>
    rw [render_integer integer, NumberText.SpelledAlike, integer]
    cases other : right.integer with
    | some partner => simp [render_integer other, repr_injective.eq_iff]
    | none => simp [render_float other, repr_ne_float prints]
  | none =>
    rw [render_float integer, NumberText.SpelledAlike, integer]
    cases other : right.integer with
    | some partner => simp [render_integer other, (repr_ne_float prints partner _ _).symm]
    | none =>
      rw [render_float other]
      constructor
      · intro same
        obtain ⟨signs, magnitudes⟩ := prints.distinct _ _ _ _ (readFloat left).property
          (readFloat right).property same
        exact ⟨rfl, fun _ => ⟨signs, Subtype.ext magnitudes⟩⟩
      · rintro ⟨-, alike⟩
        rw [(alike rfl).1, (alike rfl).2]

end SpelledAlike

section Hashes

variable {crates : Crates} {showDouble : ℚ → String} {readFloat : NumberText → Double}

/-- Scalars that are the same for the RFC are printed alike exactly when they are spelled alike. -/
theorem atom_eq_iff_spelledAlike (prints : crates.PrintsFloats) (ecma : EcmaNumbers showDouble)
    {left right : TextScalar} (same : (rfcSpelling showDouble crates.quote).atom left =
      (rfcSpelling showDouble crates.quote).atom right) :
    (crates.spelling.comap (TextScalar.read readFloat)).atom left =
        (crates.spelling.comap (TextScalar.read readFloat)).atom right ↔
      left.SpelledAlike readFloat right := by
  have numberNe (text : NumberText) {other : TextScalar} (kind : ∀ partner, other ≠ .number partner) :
      (rfcSpelling showDouble crates.quote).atom (.number text) ≠
        (rfcSpelling showDouble crates.quote).atom other := by
    have read : ∀ partner, other.nearest ≠ .number partner := by
      cases other with
      | number partner => exact absurd rfl (kind partner)
      | _ => simp [TextScalar.nearest]
    exact atom_number_ne (fun number => ecma.number number.toRat) prints.quotes _ read
  cases left with
  | number text =>
    cases right with
    | number partner => exact String.toList_inj.trans (render_eq_iff prints)
    | _ => exact absurd same (numberNe text (by simp))
  | null =>
    cases right with
    | number partner => exact absurd same.symm (numberNe partner (by simp))
    | _ => exact iff_of_true same trivial
  | bool value =>
    cases right with
    | number partner => exact absurd same.symm (numberNe partner (by simp))
    | _ => exact iff_of_true same trivial
  | string text =>
    cases right with
    | number partner => exact absurd same.symm (numberNe partner (by simp))
    | _ => exact iff_of_true same trivial

/-- The parser reads the doubles that RFC 8785 does, as `serde_json` would with `float_roundtrip`. -/
def ReadsNearest (readFloat : NumberText → Double) : Prop :=
  ∀ text : NumberText, text.InRange → (readFloat text).val = roundToDouble text.magnitude

/-- The double nearest to a number in range is a double. -/
theorem isDouble_nearest {text : NumberText} (inRange : text.InRange) :
    IsDouble |(Number.float text.negative (roundToDouble text.magnitude)).toRat| := by
  have double := isDouble_roundToDouble text.magnitude_nonneg inRange
  have size : |(Number.float text.negative (roundToDouble text.magnitude)).toRat| =
      roundToDouble text.magnitude := by
    cases text.negative <;> simp [Number.toRat, double.nonneg]
  rw [size]
  exact double

/-- Then numbers that are the same for the RFC and of one kind are spelled alike. -/
theorem spelledAlike_of_sameKind (ecma : EcmaNumbers showDouble) (nearest : ReadsNearest readFloat)
    {quote : String → String} {left right : TextScalar} (inRange : left.InRange)
    (others : right.InRange) (same : (rfcSpelling showDouble quote).atom left =
      (rfcSpelling showDouble quote).atom right) (kind : left.SameKind right) :
    left.SpelledAlike readFloat right := by
  cases left with
  | number text =>
    cases right with
    | number partner =>
      have doubles := ecma.distinct _ _ (isDouble_nearest inRange) (isDouble_nearest others)
        (String.toList_inj.mp same)
      refine ⟨kind.1, fun fraction => ⟨kind.2 fraction, Subtype.ext ?_⟩⟩
      rw [nearest text inRange, nearest partner others]
      rw [kind.2 fraction] at doubles
      cases sign : partner.negative with
      | true => simpa [Number.toRat, sign] using doubles
      | false => simpa [Number.toRat, sign] using doubles
    | _ => trivial
  | _ => trivial

/-- `jcs_serialize` writes the scalars that were read, the volatile members apart. -/
theorem toList_jcsSerialize_read {text : JsonText} (distinct : text.Distinct) :
    (jcsSerialize crates (stripVolatile (JsonText.read readFloat text))).toList =
      (JsonText.withoutVolatile text).text
        (crates.spelling.comap (TextScalar.read readFloat)) (· ≤ ·) := by
  rw [jcsSerialize_stripVolatile (JsonText.wellFormed_read distinct),
    ← JsonText.read_withoutVolatile, toList_jcsSerialize, JsonText.text_read]

/-- The hashes of two answers that are the same for RFC 8785 agree exactly when every number is
spelled alike in both. If the parser reads the nearest doubles, kinds and signs decide that. -/
theorem hash_eq_iff_spelledAlike (prints : crates.PrintsFloats) (ecma : EcmaNumbers showDouble)
    (readFloat : NumberText → Double) {raw other : String} {left right : JsonText}
    (parsed : crates.parse raw = some (JsonText.read readFloat left))
    (reparsed : crates.parse other = some (JsonText.read readFloat right))
    (iJson : JsonText.IJson left) (others : JsonText.IJson right)
    (same : rfc8785 showDouble crates.quote (JsonText.withoutVolatile left) =
      rfc8785 showDouble crates.quote (JsonText.withoutVolatile right))
    (collisionFree : hashResponse crates (stripVolatile (JsonText.read readFloat left)) =
        hashResponse crates (stripVolatile (JsonText.read readFloat right)) →
      jcsSerialize crates (stripVolatile (JsonText.read readFloat left)) =
        jcsSerialize crates (stripVolatile (JsonText.read readFloat right))) :
    (normalizeAndHash crates raw = normalizeAndHash crates other ↔
      JsonText.SpelledAlike readFloat (JsonText.withoutVolatile left)
        (JsonText.withoutVolatile right)) ∧
    (ReadsNearest readFloat → (JsonText.SpelledAlike readFloat (JsonText.withoutVolatile left)
        (JsonText.withoutVolatile right) ↔
      JsonText.SameKinds (JsonText.withoutVolatile left) (JsonText.withoutVolatile right))) := by
  have distinct := JsonText.distinct_withoutVolatile iJson.distinct
  have rfcClear : (rfcSpelling showDouble crates.quote).Clear :=
    (jsonSpelling_clear (fun number => ecma.number number.toRat) prints.quotes).comap _
  have alikeForRfc := (Tree.text_eq_iff rfcClear distinct).mp (String.ofList_inj.mp same)
  constructor
  · have texts : normalizeAndHash crates raw = normalizeAndHash crates other ↔
        jcsSerialize crates (stripVolatile (JsonText.read readFloat left)) =
          jcsSerialize crates (stripVolatile (JsonText.read readFloat right)) := by
      rw [normalizeAndHash, normalizeAndHash, parsed, reparsed, Option.map_some, Option.map_some,
        Option.some.injEq]
      exact ⟨collisionFree, fun equal => by rw [hashResponse, hashResponse, equal]⟩
    rw [texts, ← String.toList_inj, toList_jcsSerialize_read iJson.distinct,
      toList_jcsSerialize_read others.distinct,
      Tree.text_eq_iff ((spelling_clear prints.toPrintsJson).comap _) distinct,
      JsonText.SpelledAlike]
    constructor
    · intro printed
      exact (Tree.Matches.and distinct alikeForRfc printed).mono fun scalar partner both =>
        (atom_eq_iff_spelledAlike prints ecma both.1).mp both.2
    · intro alike
      exact (Tree.Matches.and distinct alikeForRfc alike).mono fun scalar partner both =>
        (atom_eq_iff_spelledAlike prints ecma both.1).mpr both.2
  · intro nearest
    constructor
    · intro alike
      refine Tree.Matches.mono (fun scalar partner spelled => ?_) alike
      cases scalar with
      | number text =>
        cases partner with
        | number other => exact ⟨spelled.1, fun fraction => (spelled.2 fraction).1⟩
        | _ => trivial
      | _ => trivial
    · intro kinds
      refine Tree.Matches.imp (fun scalar partner inRange partnerInRange both => ?_)
        (JsonText.all_withoutVolatile iJson.numbers) (JsonText.all_withoutVolatile others.numbers)
        (Tree.Matches.and distinct alikeForRfc kinds)
      exact spelledAlike_of_sameKind ecma nearest inRange partnerInRange both.1 both.2

end Hashes

section Sample

def writeDenominator (value : ℚ) : List Char :=
  if value.den = 1 then [] else 'e' :: value.den.repr.toList

/-- A way to write any rational: an integer as it is, behind it the given point. -/
def writeRatio (point : List Char) (value : ℚ) : List Char :=
  value.num.repr.toList ++ (point ++ writeDenominator value)

private theorem writeDenominator_inj {left right : ℚ}
    (same : writeDenominator left = writeDenominator right) :
    left.den = right.den := by
  unfold writeDenominator at same
  split at same <;> split at same
  · rename_i one other
    exact one.trans other.symm
  · cases same
  · cases same
  · have digits := String.toList_injective (List.cons.inj same).2
    have numbers : (left.den : Int) = right.den := repr_injective digits
    exact_mod_cast numbers

private theorem writeRatio_injective {point : List Char}
    (stops : ∀ c ∈ (point ++ ['e']).head?, (c.isDigit || c == '-') = false) :
    Function.Injective (writeRatio point) := by
  intro left right same
  have ending (value : ℚ) : ∀ c ∈ (point ++ writeDenominator value).head?,
      (c.isDigit || c == '-') = false := by
    intro c first
    refine stops c ?_
    cases point with
    | cons mark rest => exact first
    | nil =>
      rw [writeDenominator] at first
      split at first
      · cases first
      · exact first
  obtain ⟨nums, tails⟩ := repr_append_inj (ending left) (ending right) same
  exact Rat.ext nums (writeDenominator_inj (List.append_cancel_left tails))

/-- Every symbol of a written rational is one of a number. -/
theorem numberWord_writeRatio {point : List Char} (marks : ∀ c ∈ point, isNumberChar c) (value : ℚ) :
    NumberWord (writeRatio point value) where
  nonempty := by simp [writeRatio, (numberWord_repr value.num).nonempty]
  decimal c member := by
    rcases List.mem_append.mp member with digit | member
    · exact (numberWord_repr value.num).decimal c digit
    · rcases List.mem_append.mp member with mark | member
      · exact marks c mark
      · unfold writeDenominator at member
        split at member
        · cases member
        · rcases List.mem_cons.mp member with rfl | digit
          · rfl
          · exact (numberWord_digits value.den).decimal c digit

/-- Crates that print every float in a way of its own, and the integral ones as `serde_json` does. -/
def Crates.printing (parses : List (String × Json)) (digests : List (String × String)) : Crates :=
  { Crates.writing parses digests with
    showFloat := fun negative magnitude =>
      String.ofList ((if negative then ['-'] else []) ++ writeRatio ".0".toList magnitude) }

/-- The sample printer writes number words, and no two doubles alike. -/
theorem ecmaNumbers_writeRatio : EcmaNumbers fun value => String.ofList (writeRatio [] value) where
  number value := by
    rw [String.toList_ofList]
    exact numberWord_writeRatio (by simp) value
  distinct left right _ _ same := writeRatio_injective (by simp) (String.ofList_inj.mp same)

/-- Only a negative number begins with a sign. -/
theorem writeRatio_ne_sign {point rest : List Char} {value : ℚ} (nonneg : 0 ≤ value) :
    writeRatio point value ≠ '-' :: rest := by
  intro same
  have natural : value.num.repr = value.num.toNat.repr := by
    rw [Int.repr_eq_if, if_pos (Rat.num_nonneg.mpr nonneg)]
  rw [writeRatio, natural, Nat.toList_repr] at same
  cases digits : Nat.toDigits 10 value.num.toNat with
  | nil => exact Nat.toDigits_ne_nil digits
  | cons first later =>
    rw [digits] at same
    obtain rfl : first = '-' := (List.cons.inj same).1
    exact notMem_toDigits rfl _ (digits ▸ List.mem_cons_self)

private theorem printsFloats_printing (parses : List (String × Json))
    (digests : List (String × String)) :
    (Crates.printing parses digests).PrintsFloats where
  quotes := (printsJson_writing parses digests).quotes
  float negative magnitude := by
    have ratio := @numberWord_writeRatio ".0".toList (by simp [isNumberChar]) magnitude
    cases negative with
    | false => simpa [Crates.printing] using ratio
    | true =>
      refine ⟨by simp [Crates.printing], fun c member => ?_⟩
      rw [Crates.printing, String.toList_ofList] at member
      rcases List.mem_cons.mp member with rfl | digit
      · rfl
      · exact ratio.decimal c digit
  marked negative magnitude := by
    left
    simp [Crates.printing, writeRatio]
  distinct negative otherNegative magnitude otherMagnitude double otherDouble same := by
    have injective : Function.Injective (writeRatio ".0".toList) := writeRatio_injective (by simp)
    have chars := String.ofList_inj.mp same
    cases negative with
    | false =>
      cases otherNegative with
      | false => exact ⟨rfl, injective chars⟩
      | true => exact absurd chars (writeRatio_ne_sign double.nonneg)
    | true =>
      cases otherNegative with
      | false => exact absurd chars.symm (writeRatio_ne_sign otherDouble.nonneg)
      | true => exact ⟨rfl, injective (List.cons.inj chars).2⟩

/-- A pool with a number, spelled in one of several ways. -/
def pricedPool (price : NumberText) : JsonText :=
  .record [("data", .record [("tvl", .atom (.number price))])]

/-- The number one as `1`, as `1.0` and as `10e-1`. -/
def integerOne : NumberText := ⟨false, 1, none, none⟩

def fractionOne : NumberText := ⟨false, 1, some [0], none⟩

def exponentOne : NumberText := ⟨false, 10, none, some (-1)⟩

def integerBody : String := "\x7b\"data\":\x7b\"tvl\":1\x7d\x7d"

def fractionBody : String := "\x7b\"data\":\x7b\"tvl\":1.0\x7d\x7d"

def exponentBody : String := "\x7b\"data\":\x7b\"tvl\":10e-1\x7d\x7d"

/-- A pool as it is held. -/
def heldPool (price : Number) : Json := .object [("data", .object [("tvl", .number price)])]

/-- Crates that read the bodies and hash their canonical texts. -/
def Crates.pricing : Crates := Crates.printing
  [(integerBody, heldPool (.posInt 1)), (fractionBody, heldPool (.float false 1)),
    (exponentBody, heldPool (.float false 1))]
  [(integerBody, "9b32e498f0cc4a4559928b6e96cf1197504ef9131c42cce756397298bb0ab95c"),
    (fractionBody, "e61a7c92c5b68b038d02f02892b9261a4915e01fb960c6eaf8010a5c11412eb7")]

private theorem isDouble_one : IsDouble 1 := ⟨1, 0, by norm_num, by decide, by decide, by simp⟩

/-- A parser that reads the nearest double. -/
def readNearest (text : NumberText) : Double :=
  if inRange : text.InRange then
    ⟨roundToDouble text.magnitude, isDouble_roundToDouble text.magnitude_nonneg inRange⟩
  else ⟨0, isDouble_zero⟩

private theorem readsNearest_readNearest : ReadsNearest readNearest := by
  intro text inRange
  rw [readNearest, dif_pos inRange]

private theorem magnitude_one {price : NumberText}
    (listed : price ∈ [integerOne, fractionOne, exponentOne]) : price.magnitude = 1 := by
  simp only [List.mem_cons, List.not_mem_nil, or_false] at listed
  rcases listed with rfl | rfl | rfl <;>
    norm_num [integerOne, fractionOne, exponentOne, NumberText.magnitude, NumberText.fractionValue]

private theorem iJson_pricedPool {price : NumberText}
    (listed : price ∈ [integerOne, fractionOne, exponentOne]) : JsonText.IJson (pricedPool price) where
  distinct := by simp [pricedPool, Tree.Distinct, Tree.DistinctMembers]
  numbers := by
    refine ⟨⟨?_, trivial⟩, trivial⟩
    change price.magnitude ≤ maxDouble
    rw [magnitude_one listed]
    exact isDouble_one.le_maxDouble

private theorem read_pricedPool_float {price : NumberText}
    (listed : price ∈ [fractionOne, exponentOne]) :
    JsonText.read readNearest (pricedPool price) = heldPool (.float false 1) := by
  have one := magnitude_one (List.mem_cons_of_mem integerOne listed)
  have inRange : price.InRange := one.le.trans isDouble_one.le_maxDouble
  have float : (readNearest price).val = 1 := by
    rw [readsNearest_readNearest price inRange, one, roundToDouble_of_isDouble isDouble_one]
  have number : price.read readNearest = .float false 1 := by
    simp only [List.mem_cons, List.not_mem_nil, or_false] at listed
    rcases listed with rfl | rfl <;> exact congrArg (Number.float false) float
  simp [pricedPool, heldPool, JsonText.read, JsonText.readMembers, TextScalar.read, Scalar.json, number]

private theorem rfc8785_pricedPool {left right : NumberText}
    (listed : left ∈ [integerOne, fractionOne, exponentOne])
    (others : right ∈ [integerOne, fractionOne, exponentOne]) (showDouble : ℚ → String)
    (quote : String → String) :
    rfc8785 showDouble quote (JsonText.withoutVolatile (pricedPool left)) =
      rfc8785 showDouble quote (JsonText.withoutVolatile (pricedPool right)) := by
  have nearest {price : NumberText} (listed : price ∈ [integerOne, fractionOne, exponentOne]) :
      (TextScalar.number price).nearest = .number (.float false 1) := by
    rw [TextScalar.nearest, magnitude_one listed, roundToDouble_of_isDouble isDouble_one]
    simp only [List.mem_cons, List.not_mem_nil, or_false] at listed
    rcases listed with rfl | rfl | rfl <;> rfl
  have matched : Tree.Matches (fun scalar partner : TextScalar => scalar.nearest = partner.nearest)
      (JsonText.withoutVolatile (pricedPool left)) (JsonText.withoutVolatile (pricedPool right)) :=
    ⟨[], _, [], rfl, ⟨[], _, [], rfl, (nearest listed).trans (nearest others).symm, rfl⟩, rfl⟩
  refine congrArg String.ofList (Tree.text_of_matches (fun scalar partner same => ?_)
    (JsonText.distinct_withoutVolatile (iJson_pricedPool listed).distinct) matched)
  exact congrArg (jsonSpelling (fun number => showDouble number.toRat) quote).atom same

/-- The priced pools with a fraction and with an exponent have one hash, as they are spelled
alike. -/
theorem hash_eq_iff_spelledAlike_pricedPool :
    (normalizeAndHash Crates.pricing fractionBody = normalizeAndHash Crates.pricing exponentBody ↔
      JsonText.SpelledAlike readNearest (JsonText.withoutVolatile (pricedPool fractionOne))
        (JsonText.withoutVolatile (pricedPool exponentOne))) ∧
    (ReadsNearest readNearest → (JsonText.SpelledAlike readNearest
        (JsonText.withoutVolatile (pricedPool fractionOne))
        (JsonText.withoutVolatile (pricedPool exponentOne)) ↔
      JsonText.SameKinds (JsonText.withoutVolatile (pricedPool fractionOne))
        (JsonText.withoutVolatile (pricedPool exponentOne)))) :=
  hash_eq_iff_spelledAlike (printsFloats_printing _ _) ecmaNumbers_writeRatio readNearest
    (by rw [read_pricedPool_float (by simp)]; rfl) (by rw [read_pricedPool_float (by simp)]; rfl)
    (iJson_pricedPool (by simp)) (iJson_pricedPool (by simp))
    (rfc8785_pricedPool (by simp) (by simp) _ _)
    (fun _ => by rw [read_pricedPool_float (by simp), read_pricedPool_float (by simp)])

/-- Answers that are the same for RFC 8785 need not have one hash, even if the parser reads the
nearest doubles. -/
theorem rfc8785_not_hash_eq : ¬ ∀ (crates : Crates) (showDouble : ℚ → String)
    (readFloat : NumberText → Double) (raw other : String) (left right : JsonText),
    crates.PrintsFloats → EcmaNumbers showDouble → ReadsNearest readFloat →
    crates.parse raw = some (JsonText.read readFloat left) →
    crates.parse other = some (JsonText.read readFloat right) →
    JsonText.IJson left → JsonText.IJson right →
    rfc8785 showDouble crates.quote (JsonText.withoutVolatile left) =
      rfc8785 showDouble crates.quote (JsonText.withoutVolatile right) →
    normalizeAndHash crates raw = normalizeAndHash crates other := by
  intro claim
  have apart : normalizeAndHash Crates.pricing integerBody ≠
      normalizeAndHash Crates.pricing fractionBody := by decide
  exact apart (claim Crates.pricing _ readNearest integerBody fractionBody (pricedPool integerOne)
    (pricedPool fractionOne) (printsFloats_printing _ _) ecmaNumbers_writeRatio
    readsNearest_readNearest rfl (by rw [read_pricedPool_float (by simp)]; rfl)
    (iJson_pricedPool (by simp)) (iJson_pricedPool (by simp))
    (rfc8785_pricedPool (by simp) (by simp) _ _))

end Sample

end Foghorn.Core
