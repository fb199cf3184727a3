import Foghorn.Probe.AutoDiscover

/-!
# Generated queries against the schema

A deployment that answers introspection says what it takes, down to three wrappers of a type. A
query that is generated from these answers is valid up to what is not looked at: the arguments
that order the list, what arguments are declared to take, which others are required, and whether
there is an `id` to select.
-/

namespace Foghorn.Probe

open Foghorn.Std Foghorn.Core

section Answers

def TypeKind.text : TypeKind → String
  | .scalar => "SCALAR"
  | .object => "OBJECT"
  | .interface => "INTERFACE"
  | .union => "UNION"
  | .enum => "ENUM"
  | .inputObject => "INPUT_OBJECT"

/-- A type as it is served, of which only so many wrappers are asked for. -/
def typeJson : Nat → GraphqlType → Json
  | 0, .named kind name => .object [("kind", .string (TypeKind.text kind)), ("name", .string name)]
  | _ + 1, .named kind name =>
    .object [("kind", .string (TypeKind.text kind)), ("name", .string name), ("ofType", .null)]
  | 0, .list _ => .object [("kind", .string "LIST"), ("name", .null)]
  | depth + 1, .list inner =>
    .object [("kind", .string "LIST"), ("name", .null), ("ofType", typeJson depth inner)]
  | 0, .nonNull _ => .object [("kind", .string "NON_NULL"), ("name", .null)]
  | depth + 1, .nonNull inner =>
    .object [("kind", .string "NON_NULL"), ("name", .null), ("ofType", typeJson depth inner)]

def queryFieldJson (field : SchemaField) : Json :=
  .object [("name", .string field.name),
    ("args", .array (field.args.map fun arg => .object [("name", .string arg.name)])),
    ("type", typeJson 3 field.type)]

def objectFieldJson (field : SchemaField) : Json :=
  .object [("name", .string field.name), ("type", typeJson 1 field.type)]

def schemaJson (schema : GraphqlSchema) : Json :=
  .object [("data", .object [("__schema", .object [("queryType", .object [("fields",
    .array (schema.query.fields.map queryFieldJson))])])])]

def objectJson (object : Option FieldList) : Json :=
  .object [("data", .object [("__type",
    match object with
    | some list => .object [("fields", .array (list.fields.map objectFieldJson))]
    | none => .null)])]

/-- The introspection of a schema. -/
structure Introspects (schema : GraphqlSchema) (ask : String → Option Json) : Prop where
  root : ask schemaQuery = some (schemaJson schema)
  objects : ∀ entity, ask (typeQuery entity) = some (objectJson (schema.objects entity))

end Answers

section Types

private theorem text_eq_object_iff {kind : TypeKind} :
    TypeKind.text kind = "OBJECT" ↔ kind = .object := by
  cases kind <;> decide

private theorem text_ne_wrapper (kind : TypeKind) :
    TypeKind.text kind ≠ "LIST" ∧ TypeKind.text kind ≠ "NON_NULL" := by
  cases kind <;> decide

private theorem typeJson_ne_null (depth : Nat) (type : GraphqlType) :
    typeJson depth type ≠ .null := by
  cases depth <;> cases type <;> simp [typeJson]

private theorem kind_typeJson_named (depth : Nat) (kind : TypeKind) (name : String) :
    ((typeJson depth (.named kind name)).index "kind").asStr = some (TypeKind.text kind) := by
  cases depth <;> rfl

private theorem walkWrappers_wrapper {kind : String} (wrapper : kind ≠ "OBJECT") {fuel : Nat}
    {sawList : Bool}
    {inner : Json} (occupied : inner ≠ .null) :
    walkWrappers (fuel + 1) sawList
        (.object [("kind", .string kind), ("name", .null), ("ofType", inner)]) =
      walkWrappers fuel (sawList || kind = "LIST") inner := by
  have shown : (Json.object [("kind", .string kind), ("name", .null), ("ofType", inner)]).index
      "ofType" = inner := rfl
  have named : ((Json.object [("kind", .string kind), ("name", .null), ("ofType", inner)]).index
      "kind").asStr = some kind := rfl
  rw [walkWrappers, shown, named, Option.getD_some, if_neg wrapper]
  cases inner with
  | null => exact absurd rfl occupied
  | _ => rfl

/-- The walk finds the object of a list if it gets to it. -/
theorem walkWrappers_typeJson (fuel : Nat) (sawList : Bool) (type : GraphqlType) :
    walkWrappers (fuel + 1) sawList (typeJson fuel type) =
      if (sawList || type.isList) ∧ type.base.1 = .object ∧ type.wrappers ≤ fuel then some type.base.2
      else none := by
  induction type generalizing fuel sawList with
  | named kind name =>
    have bare : (typeJson fuel (.named kind name)).index "ofType" = .null := by cases fuel <;> rfl
    have named : ((typeJson fuel (.named kind name)).index "name").asStr = some name := by
      cases fuel <;> rfl
    rw [walkWrappers, kind_typeJson_named, bare, named]
    have listless := (text_ne_wrapper kind).1
    simp only [Option.getD_some, listless, decide_false, Bool.or_false, text_eq_object_iff,
      GraphqlType.isList, GraphqlType.base, GraphqlType.wrappers, Nat.zero_le, and_true]
    by_cases object : kind = .object <;> cases sawList <;> simp [object]
  | list inner ih =>
    cases fuel with
    | zero =>
      rw [if_neg (by simp [GraphqlType.wrappers])]
      rfl
    | succ fuel =>
      rw [typeJson, walkWrappers_wrapper (by decide) (typeJson_ne_null fuel inner), ih]
      simp [GraphqlType.isList, GraphqlType.base, GraphqlType.wrappers]
  | nonNull inner ih =>
    cases fuel with
    | zero =>
      rw [if_neg (by simp [GraphqlType.wrappers])]
      rfl
    | succ fuel =>
      rw [typeJson, walkWrappers_wrapper (by decide) (typeJson_ne_null fuel inner), ih]
      simp [GraphqlType.isList, GraphqlType.base, GraphqlType.wrappers]

/-- A leaf that is listed by no wrapper but a bang. -/
def plainLeaf : GraphqlType → Bool
  | .named kind _ => kind = .scalar ∨ kind = .enum
  | .nonNull (.named kind _) => kind = .scalar ∨ kind = .enum
  | _ => false

/-- A field is read as scalar or enum exactly when its type is one, or non-null one. -/
theorem isScalarOrEnum_typeJson (type : GraphqlType) :
    isScalarOrEnum (typeJson 1 type) = plainLeaf type := by
  match type with
  | .named kind name => cases kind <;> rfl
  | .list inner => rfl
  | .nonNull (.named kind name) => cases kind <;> rfl
  | .nonNull (.list inner) => rfl
  | .nonNull (.nonNull inner) => rfl

private theorem isLeaf_of_plainLeaf {type : GraphqlType} (plain : plainLeaf type = true) :
    type.IsLeaf := by
  match type with
  | .named kind name => simpa [plainLeaf, GraphqlType.IsLeaf, GraphqlType.base] using plain
  | .nonNull (.named kind name) => simpa [plainLeaf, GraphqlType.IsLeaf, GraphqlType.base] using plain


end Types

section Fields

/-- A field of the root that takes a block and returns a list of objects. -/
def Plural (field : SchemaField) : Prop :=
  startsWithText field.name "_" = false ∧ "first" ∈ field.args.map SchemaArgument.name ∧
    "block" ∈ field.args.map SchemaArgument.name ∧ field.type.isList = true ∧
    field.type.base.1 = .object ∧ field.type.wrappers ≤ 3

instance (field : SchemaField) : Decidable (Plural field) := inferInstanceAs (Decidable (_ ∧ _))

/-- A query field is taken as an entity list exactly when it is plural, with its base type. -/
theorem entityField_queryFieldJson (field : SchemaField) : entityField (queryFieldJson field) =
    if Plural field then some (field.name, field.type.base.2) else none := by
  have args : ((field.args.map fun arg => Json.object [("name", .string arg.name)]).filterMap
      fun a => (a.index "name").asStr) = field.args.map SchemaArgument.name := by
    rw [List.filterMap_map]
    exact (List.filterMap_congr fun arg _ => rfl).trans (congrFun List.filterMap_eq_map _)
  have element : listElementObject (typeJson 3 field.type) =
      if field.type.isList ∧ field.type.base.1 = .object ∧ field.type.wrappers ≤ 3 then
        some field.type.base.2
      else none := walkWrappers_typeJson 3 false field.type
  have named : ((queryFieldJson field).index "name").asStr = some field.name := rfl
  have listed : ((queryFieldJson field).index "args").asArray =
      some (field.args.map fun arg => .object [("name", .string arg.name)]) := rfl
  have typed : (queryFieldJson field).index "type" = typeJson 3 field.type := rfl
  rw [entityField, named, listed, typed, Option.bind_eq_bind, Option.bind_some, Option.bind_eq_bind,
    Option.bind_some]
  simp only [args, element, Plural]
  by_cases hidden : startsWithText field.name "_" <;>
    by_cases first : "first" ∈ field.args.map SchemaArgument.name <;>
    by_cases block : "block" ∈ field.args.map SchemaArgument.name <;>
    simp only [hidden, first, block] <;> simp
  split <;> rfl

/-- What is selected of an object. -/
def selectionOf (object : FieldList) : List String :=
  let leaves := ((object.fields.filter fun field => plainLeaf field.type).map SchemaField.name).take maxFields
  if "id" ∈ leaves then leaves else ("id" :: leaves).take maxFields

/-- The walk selects the first plain leaves until there is no more room. -/
theorem selectFields_objectFieldJson (fields : List SchemaField) {selected : List String}
    (room : selected.length < maxFields) : selectFields (fields.map objectFieldJson) selected =
      (selected ++ (fields.filter fun field => plainLeaf field.type).map SchemaField.name).take
        maxFields := by
  induction fields generalizing selected with
  | nil =>
    change selected = (selected ++ []).take maxFields
    rw [List.append_nil, List.take_of_length_le room.le]
  | cons field rest ih =>
    have named : ((objectFieldJson field).index "name").asStr = some field.name := rfl
    have typed : (objectFieldJson field).index "type" = typeJson 1 field.type := rfl
    rw [List.map_cons, selectFields, named, typed, isScalarOrEnum_typeJson]
    dsimp only
    by_cases leaf : plainLeaf field.type
    · rw [if_pos leaf, List.filter_cons_of_pos (by simpa using leaf), List.map_cons]
      split
      · next full =>
        have fits : (selected ++ [field.name]).length ≤ maxFields := by
          rw [List.length_append]
          exact room
        refine Eq.symm ((congrArg (List.take maxFields) (List.append_cons _ _ _)).trans ?_)
        rw [List.take_append_of_le_length full, List.take_of_length_le fits]
      · next space =>
        rw [ih (not_le.mp space), List.append_assoc]
        rfl
    · rw [if_neg leaf, List.filter_cons_of_neg (by simpa using leaf), if_neg (not_le.mpr room),
        ih room]

/-- A selection is never empty. -/
theorem selectionOf_ne_nil (object : FieldList) : selectionOf object ≠ [] := by
  unfold selectionOf
  dsimp only
  split
  · next among => exact List.ne_nil_of_mem among
  · exact List.cons_ne_nil _ _

/-- `find_map` stops at the first plural field. -/
theorem findSome?_entityField (fields : List SchemaField) :
    (fields.map queryFieldJson).findSome? entityField =
      (fields.find? fun field => Plural field).map fun field =>
          (field.name, field.type.base.2) := by
  induction fields with
  | nil => rfl
  | cons field rest ih =>
    rw [List.map_cons, List.findSome?_cons, List.find?_cons, entityField_queryFieldJson]
    by_cases plural : Plural field
    · rw [if_pos plural, decide_eq_true plural]
      rfl
    · rw [if_neg plural, decide_eq_false plural]
      exact ih

variable {schema : GraphqlSchema} {ask : String → Option Json}

/-- What is generated for a schema: of the first plural field, what is selected of its objects. -/
theorem buildQueryFields_of_introspects (served : Introspects schema ask) :
    buildQueryFields ask = (schema.query.fields.find? fun field => Plural field).bind fun field =>
      (schema.objects field.type.base.2).map fun object => (field.name, selectionOf object) := by
  have fields : ((schemaJson schema).pointer ["data", "__schema", "queryType", "fields"]).bind
      Json.asArray = some (schema.query.fields.map queryFieldJson) := rfl
  rw [buildQueryFields, served.root]
  simp only [Option.bind_eq_bind, Option.bind_some, fields, findSome?_entityField]
  cases schema.query.fields.find? fun field => decide (Plural field) with
  | none => rfl
  | some field =>
    simp only [Option.map_some, Option.bind_some, served.objects]
    cases schema.objects field.type.base.2 with
    | none => rfl
    | some object =>
      have listed : ((objectJson (some object)).pointer ["data", "__type", "fields"]).bind
        Json.asArray =
          some (object.fields.map objectFieldJson) := rfl
      have leaves := @selectFields_objectFieldJson object.fields [] (by decide)
      rw [List.nil_append] at leaves
      simp only [listed, Option.bind_some, leaves]
      exact if_neg (selectionOf_ne_nil object)

end Fields

section Generated

variable {schema : GraphqlSchema} {ask : String → Option Json}

/-- What a template gives to the field. -/
def templateArgs : List (String × ArgumentValue) :=
  [("first", .plain (.int 4)), ("orderBy", .plain (.enum "id")),
    ("orderDirection", .plain (.enum "asc")), ("block", .object [("hash", .string "$block_hash")])]

/-- The query of a template. -/
def generatedQuery (field : String) (fields : List String) : FieldQuery where
  field := field
  args := templateArgs
  selection := fields

/-- The template is the text of that query. -/
theorem text_generatedQuery (field : String) (fields : List String) :
    (generatedQuery field fields).text = renderTemplate field fields := by
  have args : "(" ++ ", ".intercalate (templateArgs.map fun arg => arg.1 ++ ": " ++ arg.2.text) ++
      ") \x7b " =
      "(first: 4, orderBy: id, orderDirection: asc, block: \x7b hash: \"$block_hash\" \x7d) \x7b " := by
    decide
  rw [renderTemplate, ← args]
  simp only [FieldQuery.text, generatedQuery, String.append_assoc]

/-- What the generator does not look at: whether the list can be ordered, whether the arguments
are of the types that they are declared with (a number, the value `id`, a block by its hash), what
else is required, and whether there is a leaf called `id`. -/
structure Unseen (schema : GraphqlSchema) (field : SchemaField) (fields : List String) : Prop where
  ordered : "orderBy" ∈ field.args.map SchemaArgument.name ∧
    "orderDirection" ∈ field.args.map SchemaArgument.name
  typed : ∀ arg ∈ field.args, ∀ value, (arg.name, value) ∈ templateArgs →
    schema.Takes arg.type value
  supplied : field.SuppliedBy ["first", "orderBy", "orderDirection", "block"]
  identified : ∀ object ∈ schema.objects field.type.base.2,
    ∃ id ∈ object.fields, id.name = "id" ∧ id.type.IsLeaf
  plain : ∀ object ∈ schema.objects field.type.base.2,
    ∀ selected ∈ object.fields, selected.name ∈ fields → selected.SuppliedBy []

private theorem apart_templateArgs : (templateArgs.map Prod.fst).Nodup := by decide

/-- A declared argument of a template is typed as all of its name are. -/
theorem Unseen.takes {schema : GraphqlSchema} {field : SchemaField} {fields : List String}
    (unseen : Unseen schema field fields) {arg : String × ArgumentValue} (given : arg ∈ templateArgs)
    (known : arg.1 ∈ field.args.map SchemaArgument.name) :
    ∃ declared ∈ field.args, declared.name = arg.1 ∧ schema.Takes declared.type arg.2 := by
  obtain ⟨declared, among, same⟩ := List.mem_map.mp known
  exact ⟨declared, among, same, unseen.typed declared among arg.2 (by rwa [same])⟩

/-- Every selection has the id. -/
theorem id_mem_selectionOf (object : FieldList) : "id" ∈ selectionOf object := by
  unfold selectionOf
  dsimp only
  split
  · assumption
  · exact List.mem_cons_self

/-- What is selected is the id or a leaf of the object. -/
theorem of_mem_selectionOf {object : FieldList} {name : String} (member : name ∈ selectionOf object) :
    name = "id" ∨ ∃ field ∈ object.fields, field.name = name ∧ field.type.IsLeaf := by
  have leaf (listed : name ∈ ((object.fields.filter fun field => plainLeaf field.type).map
      SchemaField.name).take maxFields) :
      ∃ field ∈ object.fields, field.name = name ∧ field.type.IsLeaf := by
    obtain ⟨field, kept, same⟩ := List.mem_map.mp (List.mem_of_mem_take listed)
    obtain ⟨among, plain⟩ := List.mem_filter.mp kept
    exact ⟨field, among, same, isLeaf_of_plainLeaf plain⟩
  unfold selectionOf at member
  dsimp only at member
  split at member
  · exact .inr (leaf member)
  · exact (List.mem_cons.mp (List.mem_of_mem_take member)).imp id leaf

/-- A query that is generated from the introspection of a schema is of a field of the schema, and
it is valid there exactly up to what the generator does not look at. -/
theorem generated_valid_iff (schema : GraphqlSchema) (ask : String → Option Json)
    (served : Introspects schema ask) (name : String) (fields : List String)
    (built : buildQueryFields ask = some (name, fields)) :
    (generatedQuery name fields).text = renderTemplate name fields ∧
      ∃ field ∈ schema.query.fields, field.name = name ∧
        ((generatedQuery name fields).Valid schema ↔ Unseen schema field fields) := by
  refine ⟨text_generatedQuery name fields, ?_⟩
  rw [buildQueryFields_of_introspects served] at built
  obtain ⟨field, found, selected⟩ := Option.bind_eq_some_iff.mp built
  obtain ⟨object, known, same⟩ := Option.map_eq_some_iff.mp selected
  cases same
  have among := List.mem_of_find?_eq_some found
  have plural : Plural field := by simpa using List.find?_some found
  obtain ⟨-, first, block, -, objects, -⟩ := plural
  refine ⟨field, among, rfl, fun valid => ?_, fun unseen => ?_⟩
  · obtain ⟨other, listed, called, taken, supplied, -, shown, knows, each⟩ := valid.target
    obtain rfl := FieldList.eq_of_name among listed called.symm
    obtain rfl : object = shown := Option.some.inj (known.symm.trans knows)
    have named (arg : String × ArgumentValue) (given : arg ∈ templateArgs) :
        arg.1 ∈ field.args.map SchemaArgument.name := by
      obtain ⟨declared, in_args, same, -⟩ := taken arg given
      exact List.mem_map.mpr ⟨declared, in_args, same⟩
    have typed {arg : SchemaArgument} (in_args : arg ∈ field.args) {value : ArgumentValue}
        (given : (arg.name, value) ∈ templateArgs) : schema.Takes arg.type value := by
      obtain ⟨declared, also, same, takes⟩ := taken _ given
      rwa [SchemaField.eq_of_name also in_args same] at takes
    refine ⟨⟨named ("orderBy", .plain (.enum "id")) (by simp [templateArgs]),
      named ("orderDirection", .plain (.enum "asc")) (by simp [templateArgs])⟩,
      fun arg in_args value given => typed in_args given, supplied, ?_, ?_⟩
    · rintro _ here
      obtain rfl := Option.some.inj (known.symm.trans here)
      obtain ⟨id, in_object, is_id, leaf, -⟩ := each "id" (id_mem_selectionOf object)
      exact ⟨id, in_object, is_id, leaf⟩
    · rintro _ here chosen in_object asked
      obtain rfl := Option.some.inj (known.symm.trans here)
      obtain ⟨also, also_in, same, -, plain⟩ := each chosen.name asked
      rwa [FieldList.eq_of_name also_in in_object same] at plain
  · refine ⟨selectionOf_ne_nil object, apart_templateArgs, field, among, rfl, ?_, unseen.supplied, objects,
      object, known, ?_⟩
    · intro arg given
      refine unseen.takes given ?_
      simp only [generatedQuery, templateArgs, List.mem_cons, List.not_mem_nil, or_false] at given
      rcases given with rfl | rfl | rfl | rfl
      · exact first
      · exact unseen.ordered.1
      · exact unseen.ordered.2
      · exact block
    · intro chosen asked
      have plain := unseen.plain object known
      rcases of_mem_selectionOf asked with rfl | ⟨leaf, in_object, rfl, is_leaf⟩
      · obtain ⟨id, in_object, is_id, is_leaf⟩ := unseen.identified object known
        exact ⟨id, in_object, is_id, is_leaf, plain id in_object (is_id ▸ asked)⟩
      · exact ⟨leaf, in_object, rfl, is_leaf, plain leaf in_object asked⟩

/-- `tokens`, which takes what The Graph's lists take. -/
def tokensField : SchemaField where
  name := "tokens"
  args := [⟨"first", .named .scalar "Int", true⟩, ⟨"orderBy", .named .enum "Token_orderBy", false⟩,
    ⟨"orderDirection", .named .enum "OrderDirection", false⟩,
    ⟨"block", .named .inputObject "Block_height", false⟩]
  type := .nonNull (.list (.nonNull (.named .object "Token")))
  distinct := by decide

/-- A root with tokens, of which two fields are leaves. -/
def tokenSchema : GraphqlSchema where
  query :=
    { fields :=
        [⟨"_meta", [⟨"block", .named .inputObject "Block_height", false⟩], .named .object "_Meta_",
            by decide⟩,
          ⟨"token", [⟨"id", .nonNull (.named .scalar "ID"), false⟩,
            ⟨"block", .named .inputObject "Block_height", false⟩], .named .object "Token", by decide⟩,
          tokensField]
      distinct := by decide }
  objects name :=
    if name = "Token" then
      some
        { fields :=
            [⟨"id", [], .nonNull (.named .scalar "ID"), by decide⟩,
              ⟨"owner", [], .named .object "Account", by decide⟩,
              ⟨"symbol", [], .named .scalar "String", by decide⟩]
          distinct := by decide }
    else none
  inputs name :=
    if name = "Block_height" then
      some [⟨"hash", .named .scalar "Bytes", false⟩, ⟨"number", .named .scalar "Int", false⟩]
    else none
  enums name := if name = "Token_orderBy" then ["id", "owner", "symbol"] else ["asc", "desc"]
  scalars name value :=
    match value with
    | .plain (.int _) => name = "Int" ∨ name = "ID"
    | .plain (.string _) => name = "String" ∨ name = "Bytes" ∨ name = "ID"
    | _ => false

def askTokens (text : String) : Option Json :=
  if text = schemaQuery then some (schemaJson tokenSchema)
  else if text = typeQuery "Token" then some (objectJson (tokenSchema.objects "Token"))
  else some (objectJson none)

private theorem introspects_tokenSchema : Introspects tokenSchema askTokens where
  root := if_pos rfl
  objects entity := by
    have spread (a b c : String) : (a ++ b ++ c).toList = a.toList ++ (b.toList ++ c.toList) := by
      rw [String.toList_append, String.toList_append, List.append_assoc]
    have apart : typeQuery entity ≠ schemaQuery := by
      intro same
      have typed : (typeQuery entity).toList[4]? = some 't' :=
        ((congrArg (·[4]?) (spread _ entity _)).trans (List.getElem?_append_left (by decide))).trans
          (by decide)
      have fifth : schemaQuery.toList[4]? = some 's' := by decide +kernel
      rw [same, fifth] at typed
      exact absurd typed (by decide)
    rw [askTokens, if_neg apart]
    by_cases token : entity = "Token"
    · rw [token, if_pos rfl]
    · have other : typeQuery entity ≠ typeQuery "Token" := by
        intro same
        have texts := ((spread _ entity _).symm.trans (congrArg String.toList same)).trans
          (spread _ "Token" _)
        exact token (String.toList_inj.mp (List.append_cancel_right (List.append_cancel_left texts)))
      have unknown : tokenSchema.objects entity = none := if_neg token
      rw [if_neg other, unknown]

private theorem tokensField_takes {arg : SchemaArgument} (among : arg ∈ tokensField.args)
    {value : ArgumentValue} (given : (arg.name, value) ∈ templateArgs) :
    tokenSchema.Takes arg.type value := by
  simp only [tokensField, List.mem_cons, List.not_mem_nil, or_false] at among
  rcases among with rfl | rfl | rfl | rfl <;>
    simp only [templateArgs, List.mem_cons, Prod.mk.injEq, List.not_mem_nil, or_false] at given
  · obtain rfl : value = .plain (.int 4) := by simpa using given
    rfl
  · obtain rfl : value = .plain (.enum "id") := by simpa using given
    exact ⟨"id", by decide, rfl⟩
  · obtain rfl : value = .plain (.enum "asc") := by simpa using given
    exact ⟨"asc", by decide, rfl⟩
  · obtain rfl : value = .object [("hash", .string "$block_hash")] := by simpa using given
    refine ⟨_, rfl, fun field member => ?_, by decide⟩
    obtain rfl := List.mem_singleton.mp member
    exact ⟨_, List.mem_cons_self, rfl, rfl⟩

/-- The query generated for the token schema is valid in it. -/
theorem tokens_valid : (generatedQuery "tokens" ["id", "symbol"]).Valid tokenSchema := by
  have built : buildQueryFields askTokens = some ("tokens", ["id", "symbol"]) := by
    rw [buildQueryFields_of_introspects introspects_tokenSchema]
    rfl
  obtain ⟨-, field, among, called, valid_iff⟩ :=
    generated_valid_iff tokenSchema askTokens introspects_tokenSchema _ _ built
  refine valid_iff.mpr ?_
  have listed : field = tokensField :=
    FieldList.eq_of_name among (by simp [tokenSchema]) called
  subst listed
  refine ⟨⟨by decide, by decide⟩, fun arg in_args value given => tokensField_takes in_args given,
    ?_, ?_, ?_⟩
  · simp [SchemaField.SuppliedBy, tokensField]
  · rintro object here
    obtain rfl := Option.some.inj here
    exact ⟨_, List.mem_cons_self, rfl, .inl rfl⟩
  · rintro object here selected member -
    obtain rfl := Option.some.inj here
    simp only [List.mem_cons, List.not_mem_nil, or_false] at member
    rcases member with rfl | rfl | rfl <;> simp [SchemaField.SuppliedBy]

end Generated

end Foghorn.Probe
