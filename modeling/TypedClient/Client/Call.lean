import TypedClient.Client.Signature

/-!
# Example calls

A call passes the objects that the signature declares, position by position. The path object has all
its keys; the query object has the first two.
-/

namespace TypedClient

/-- What stands for the values of an example call. -/
structure CallStyle where
  pathNumber : String
  pathText : String
  queryNumber : String
  /-- Whether a query parameter with choices takes the first of them. -/
  usesChoices : Bool
  queryText : String
  body : String

namespace Call

/-- The number of query parameters in an example call. -/
def queryLimit : Nat := 2

/-- The style of the calls in comments. -/
def commentStyle : CallStyle :=
  ⟨"123", "\"value\"", "10", false, "\"value\"", "\x7b\x7d"⟩

/-- The style of the calls in the example file. -/
def fileStyle : CallStyle :=
  ⟨"123", "\"example-value\"", "10", true, "\"value\"", "\x7b /* your request body */ \x7d"⟩

/-- The value of a path parameter. -/
def pathValue (style : CallStyle) (reg : Registry) (p : Parameter) : String :=
  if reg.isNumeric p.schema then style.pathNumber else style.pathText

/-- The value of a query parameter. -/
def queryValue (style : CallStyle) (reg : Registry) (p : Parameter) : String :=
  if reg.isNumeric p.schema then style.queryNumber
  else if style.usesChoices then
    match reg.firstChoice? p.schema with
    | some v => Text.doubleQuoted v.display
    | none => style.queryText
  else style.queryText

/-- The choices that stand for query parameters in an example call. -/
def shownChoices (reg : Registry) (e : Endpoint) : List Value :=
  ((e.queryParameters.take queryLimit).filter fun p => !reg.isNumeric p.schema).filterMap fun p =>
    reg.firstChoice? p.schema

/-- An object literal with values for parameters. -/
def bundle (value : Parameter → String) (ps : List Parameter) : String :=
  "\x7b " ++ String.intercalate ", " (ps.map fun p => Name.propertyKey p.name ++ ": " ++ value p) ++
    " \x7d"

/-- The arguments of the example call of an endpoint. -/
def arguments (style : CallStyle) (reg : Registry) (e : Endpoint) : List String :=
  (if e.pathParameters.isEmpty then [] else [bundle (pathValue style reg) e.pathParameters]) ++
  (if e.queryParameters.isEmpty then []
    else [bundle (queryValue style reg) (e.queryParameters.take queryLimit)]) ++
  (if e.requestBody.isSome then [style.body] else [])

/-- The statement that makes the example call of an endpoint. -/
def statement (style : CallStyle) (reg : Registry) (e : Endpoint) : String :=
  "const result = await client." ++ Name.method e.operationId ++ "(" ++
    String.intercalate ", " (arguments style reg e) ++ ");"

end Call

end TypedClient
