import Mathlib.Data.List.Nodup

/-!
# Queries of one field

A schema has fields with arguments, whose types wrap a named type. A query of one field is valid
when the field takes its arguments, their values are of the types that they are declared with,
it has all that it requires, and what is selected of the objects it returns are leaves that
require none.
-/

namespace Foghorn.Std

inductive TypeKind where
  | scalar
  | object
  | interface
  | union
  | enum
  | inputObject
deriving DecidableEq

/-- A type with its wrappers, the outermost first. -/
inductive GraphqlType where
  | named (kind : TypeKind) (name : String)
  | list (inner : GraphqlType)
  | nonNull (inner : GraphqlType)
deriving DecidableEq

namespace GraphqlType

/-- What is left without the wrappers. -/
def base : GraphqlType → TypeKind × String
  | named kind name => (kind, name)
  | list inner => inner.base
  | nonNull inner => inner.base

def wrappers : GraphqlType → Nat
  | named _ _ => 0
  | list inner => inner.wrappers + 1
  | nonNull inner => inner.wrappers + 1

/-- Whether one of the wrappers is a list. -/
def isList : GraphqlType → Bool
  | named _ _ => false
  | list _ => true
  | nonNull inner => inner.isList

/-- What is selected without a selection of its own. -/
def IsLeaf (type : GraphqlType) : Prop := type.base.1 = .scalar ∨ type.base.1 = .enum

instance (type : GraphqlType) : Decidable type.IsLeaf := inferInstanceAs (Decidable (_ ∨ _))

end GraphqlType

/-- A value as it is written in a query. The texts need no escapes. -/
inductive Literal where
  | int (value : Nat)
  | string (text : String)
  | enum (name : String)
deriving DecidableEq

/-- What an argument is given: a value, or an object of such. -/
inductive ArgumentValue where
  | plain (literal : Literal)
  | object (fields : List (String × Literal))
deriving DecidableEq

def Literal.text : Literal → String
  | int value => toString value
  | string text => "\"" ++ text ++ "\""
  | enum name => name

def ArgumentValue.text : ArgumentValue → String
  | plain literal => literal.text
  | object fields =>
    "\x7b " ++ ", ".intercalate (fields.map fun field => field.1 ++ ": " ++ field.2.text) ++ " \x7d"

structure SchemaArgument where
  name : String
  type : GraphqlType
  defaulted : Bool
deriving DecidableEq

/-- An argument that takes no null and has no default cannot be left out. -/
def SchemaArgument.required (arg : SchemaArgument) : Bool :=
  match arg.type with
  | .nonNull _ => !arg.defaulted
  | _ => false

/-- A field with arguments under names of their own. -/
structure SchemaField where
  name : String
  args : List SchemaArgument
  type : GraphqlType
  distinct : (args.map SchemaArgument.name).Nodup

/-- Fields under names of their own. -/
structure FieldList where
  fields : List SchemaField
  distinct : (fields.map SchemaField.name).Nodup

/-- The fields of the root, those of each object, and what the types of arguments take. -/
structure GraphqlSchema where
  query : FieldList
  objects : String → Option FieldList
  inputs : String → Option (List SchemaArgument)
  enums : String → List String
  scalars : String → ArgumentValue → Bool

namespace GraphqlSchema

/-- A value is of a type, or of a list of it, or of either without null. -/
def TakesLiteral (schema : GraphqlSchema) (type : GraphqlType) (literal : Literal) : Prop :=
  match type.base.1 with
  | .scalar => schema.scalars type.base.2 (.plain literal) = true
  | .enum => ∃ name ∈ schema.enums type.base.2, literal = .enum name
  | _ => False

/-- An object is of a type when its fields are, and it has all that the type requires. -/
def Takes (schema : GraphqlSchema) (type : GraphqlType) : ArgumentValue → Prop
  | .plain literal => schema.TakesLiteral type literal
  | .object fields =>
    match type.base.1 with
    | .scalar => schema.scalars type.base.2 (.object fields) = true
    | .inputObject => ∃ declared ∈ schema.inputs type.base.2,
      (∀ field ∈ fields, ∃ arg ∈ declared, arg.name = field.1 ∧ schema.TakesLiteral arg.type field.2) ∧
        ∀ arg ∈ declared, arg.required = true → arg.name ∈ fields.map Prod.fst
    | _ => False

end GraphqlSchema

/-- A field with arguments and what is selected of it. -/
structure FieldQuery where
  field : String
  args : List (String × ArgumentValue)
  selection : List String

/-- The query as it is sent. -/
def FieldQuery.text (query : FieldQuery) : String :=
  "\x7b " ++ query.field ++
    "(" ++ ", ".intercalate (query.args.map fun arg => arg.1 ++ ": " ++ arg.2.text) ++
    ") \x7b " ++ " ".intercalate query.selection ++ " \x7d \x7d"

namespace SchemaField

/-- Every argument that is required is among some names. -/
def SuppliedBy (field : SchemaField) (names : List String) : Prop :=
  ∀ arg ∈ field.args, arg.required = true → arg.name ∈ names

/-- A leaf that is selected by its name alone. -/
def Selectable (field : SchemaField) : Prop := field.type.IsLeaf ∧ field.SuppliedBy []

end SchemaField

/-- The query is valid against the schema. -/
structure FieldQuery.Valid (schema : GraphqlSchema) (query : FieldQuery) : Prop where
  occupied : query.selection ≠ []
  apart : (query.args.map Prod.fst).Nodup
  target : ∃ field ∈ schema.query.fields, field.name = query.field ∧
    (∀ arg ∈ query.args, ∃ declared ∈ field.args, declared.name = arg.1 ∧
      schema.Takes declared.type arg.2) ∧
    field.SuppliedBy (query.args.map Prod.fst) ∧ field.type.base.1 = .object ∧
    ∃ object, schema.objects field.type.base.2 = some object ∧
      ∀ name ∈ query.selection, ∃ selected ∈ object.fields, selected.name = name ∧
        selected.Selectable

/-- A name has one field. -/
theorem FieldList.eq_of_name {list : FieldList} {left right : SchemaField}
    (first : left ∈ list.fields)
    (second : right ∈ list.fields) (same : left.name = right.name) : left = right :=
  List.inj_on_of_nodup_map list.distinct first second same

/-- A name has one argument. -/
theorem SchemaField.eq_of_name {field : SchemaField} {left right : SchemaArgument}
    (first : left ∈ field.args) (second : right ∈ field.args) (same : left.name = right.name) :
    left = right :=
  List.inj_on_of_nodup_map field.distinct first second same

end Foghorn.Std
