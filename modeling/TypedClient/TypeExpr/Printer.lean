import TypedClient.TypeExpr.Basic
import TypedClient.TypeExpr.Operator
import TypedClient.Text.Indent
import TypedClient.Name

/-!
# Text of type expressions

The level is the indentation of the line that the closing brace of an object type stands on; its
properties stand one level deeper. A member of a combination gets parentheses when its text has an
operator at the top level.
-/

namespace TypedClient.TypeExpr

open Text

/-- A literal type: a double-quoted text or `null`. -/
def literal : Option String → String
  | none => "null"
  | some s => doubleQuoted s

/-- A member of a combination. -/
def grouped (text : String) : String :=
  if hasTopLevelOperator text then "(" ++ text ++ ")" else text

/-- The operator of a combination with the blanks around it. -/
def operator : Combination → String
  | .union => " | "
  | .intersection => " & "

/-- The line of a property in an object type at a level. -/
def propertyLine (level : Int) (key : PropertyKey) (type : String) : String :=
  indent (level + 1) ++ Name.propertyKey key.name ++ (if key.isOptional then "?" else "") ++ ": " ++
    type ++ ";"

mutual

/-- The text of a type expression at a level. -/
def render (level : Int) : TypeExpr → String
  | .unknown => "unknown"
  | .string => "string"
  | .number => "number"
  | .boolean => "boolean"
  | .literals choices => String.intercalate " | " (choices.map literal)
  | .named name => name
  | .array element => "Array<" ++ render level element ++ ">"
  | .openRecord => "Record<string, unknown>"
  | .object properties =>
    "\x7b\n" ++ String.intercalate "\n" (renderProperties level properties) ++ "\n" ++
      indent level ++ "\x7d"
  | .combination how members => String.intercalate (operator how) (renderMembers level members)

def renderProperties (level : Int) : List (PropertyKey × TypeExpr) → List String
  | [] => []
  | (key, type) :: rest =>
    propertyLine level key (render (level + 1) type) :: renderProperties level rest

def renderMembers (level : Int) : List TypeExpr → List String
  | [] => []
  | type :: rest => grouped (render level type) :: renderMembers level rest

end

end TypedClient.TypeExpr
