import TypedClient.Value.Basic

/-!
# Schemas

A schema describes the values that a parameter or a body may take. It is a primitive, an array, an
object, a reference to a named schema, a combination of schemas, or a value of the document that is
none of these.
-/

namespace TypedClient

/-- The types of values without parts. -/
inductive PrimitiveKind where
  | string | number | integer | boolean
  deriving DecidableEq, Repr

namespace PrimitiveKind

def all : List PrimitiveKind := [.string, .number, .integer, .boolean]

/-- The word for the type in a document. -/
def keyword : PrimitiveKind → String
  | .string => "string"
  | .number => "number"
  | .integer => "integer"
  | .boolean => "boolean"

def isNumeric : PrimitiveKind → Bool
  | .number => true
  | .integer => true
  | _ => false

end PrimitiveKind

/-- The ways to combine schemas. -/
inductive CombinatorKind where
  | oneOf | allOf | anyOf
  deriving DecidableEq, Repr

namespace CombinatorKind

/-- The ways to combine schemas in the order in which a schema is searched for them. -/
def all : List CombinatorKind := [.oneOf, .allOf, .anyOf]

/-- The key of the members in a document. -/
def keyword : CombinatorKind → String
  | .oneOf => "oneOf"
  | .allOf => "allOf"
  | .anyOf => "anyOf"

end CombinatorKind

/-- A schema for values without parts. -/
structure Primitive where
  kind : PrimitiveKind
  choices : Option (List Value)
  default : Value
  format : Option String
  description : Option String

/-- What an object may hold beside its properties: anything or nothing, or values of a schema. -/
inductive Additional (α : Type) where
  | allowed (yes : Bool)
  | schema (s : α)

/-- A schema. -/
inductive Schema where
  | primitive (p : Primitive)
  | array (element : Schema)
  | object (properties : List (String × Schema)) (required : List String)
      (additional : Additional Schema) (description : Option String)
  | reference (ref : String)
  | combinator (kind : CombinatorKind) (members : List Schema)
  | unknown (raw : Value)
  deriving Inhabited

end TypedClient
