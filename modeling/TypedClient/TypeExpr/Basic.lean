/-!
# Type expressions

The types that the client declares and mentions. Members of a union or an intersection are kept in
order, and a combination has at least two of them when it comes from a schema.
-/

namespace TypedClient

/-- The two ways to combine types. -/
inductive Combination where
  | union | intersection
  deriving DecidableEq, Repr

/-- The key of an object type, with or without the mark of an optional property. -/
structure PropertyKey where
  name : String
  isOptional : Bool
  deriving DecidableEq, Repr

/-- A type expression. A literal type lists texts, and `none` stands for the literal `null`. -/
inductive TypeExpr where
  | unknown
  | string
  | number
  | boolean
  | literals (choices : List (Option String))
  | named (name : String)
  | array (element : TypeExpr)
  | openRecord
  | object (properties : List (PropertyKey × TypeExpr))
  | combination (how : Combination) (members : List TypeExpr)
  deriving Inhabited

end TypedClient
