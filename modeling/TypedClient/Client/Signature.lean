import TypedClient.Endpoint.Basic
import TypedClient.TypeExpr.OfSchema
import TypedClient.Text.Digit

/-!
# Signatures of methods

A method takes its path parameters as one object, its query parameters as another, and the request
body, in this order and as far as the endpoint has them. Its result names the type of the successful
response and the status codes of the errors. Declared schemas are mentioned by name and not spelled
out.
-/

namespace TypedClient

/-- How an argument may be left out. -/
inductive Presence where
  | required
  | optional
  /-- It may be left out and is the empty object then. -/
  | defaulted
  deriving DecidableEq, Repr

/-- An argument of a method. -/
structure Argument where
  name : String
  presence : Presence
  type : String
  deriving DecidableEq, Repr

def Argument.render (a : Argument) : String :=
  match a.presence with
  | .required => a.name ++ ": " ++ a.type
  | .optional => a.name ++ "?: " ++ a.type
  | .defaulted => a.name ++ ": " ++ a.type ++ " = \x7b\x7d"

namespace Signature

/-- The only media type whose schemas are used. -/
def jsonMediaType : String := "application/json"

/-- The status codes of success; the first that a response has counts. -/
def successCodes : List String := ["200", "201", "204"]

/-- The least status code of an error. -/
def leastErrorCode : Nat := 400

/-- The type of a schema in a signature: every declared schema goes by its name. -/
def typeOf (reg : Registry) (s : Schema) : String :=
  s.typeText reg reg.names 0

/-- The type of a parameter. Without a schema it is a text. -/
def parameterType (reg : Registry) (p : Parameter) : String :=
  match p.schema with
  | some s => typeOf reg s
  | none => "string"

/-- An object type on one line. -/
def inlineObject (properties : List String) : String :=
  "\x7b " ++ String.intercalate "; " properties ++ " \x7d"

/-- The type of the object with the path parameters. -/
def pathType (reg : Registry) (ps : List Parameter) : String :=
  inlineObject (ps.map fun p => Name.propertyKey p.name ++ ": " ++ parameterType reg p)

/-- The type of the object with the query parameters. -/
def queryType (reg : Registry) (ps : List Parameter) : String :=
  inlineObject (ps.map fun p =>
    Name.propertyKey p.name ++ (if p.required then "" else "?") ++ ": " ++ parameterType reg p)

/-- The type that a content gives to bodies. -/
def contentType (reg : Registry) (content : Content) : String :=
  match Assoc.find? content jsonMediaType with
  | some (some s) => typeOf reg s
  | _ => "unknown"

/-- The type of the response to a successful request. -/
def responseType (reg : Registry) (responses : List (String × Response)) : String :=
  match successCodes.findSome? (Assoc.find? responses) with
  | some response => contentType reg response.content
  | none => "unknown"

/-- The schema that a content gives to bodies, if it gives one. -/
def contentSchema? (content : Content) : Option Schema :=
  (Assoc.find? content jsonMediaType).join

/-- The schemas whose types a signature shows: those of the parameters, of the body and of the
response to a successful request. -/
def schemas (e : Endpoint) : List Schema :=
  (e.pathParameters ++ e.queryParameters).filterMap (·.schema) ++
    (e.requestBody.bind fun body => contentSchema? body.content).toList ++
    ((successCodes.findSome? (Assoc.find? e.responses)).bind fun response =>
      contentSchema? response.content).toList

/-- The choices that the types of a signature list. -/
def literals (reg : Registry) (e : Endpoint) : List Value :=
  (schemas e).flatMap (Schema.literals reg reg.names)

/-- The status that a code writes, if it is a code of digits. Digits that form no numeral are
refused. -/
def statusOf (code : String) : Except String (Option Nat) :=
  if Text.isDigits code then
    match Text.numeralValue? code with
    | some n => .ok (some n)
    | none => .error code
  else .ok none

/-- The status codes of errors in the order of the responses. -/
def errorCodes (codes : List String) : Except String (List Nat) := do
  let statuses ← codes.mapM statusOf
  return statuses.filterMap fun s => s.filter (leastErrorCode ≤ ·)

/-- The type of the error statuses, if there are any. -/
def errorType (codes : List String) : Except String (Option String) := do
  let statuses ← errorCodes codes
  return if statuses.isEmpty then none
    else some (String.intercalate " | " (statuses.map toString))

/-- The type of the result of a method. -/
def resultType (response : String) (error : Option String) : String :=
  match error with
  | some statuses => "ApiResult<" ++ response ++ ", " ++ statuses ++ ">"
  | none => "ApiResult<" ++ response ++ ">"

/-- Whether a request cannot be made without a body. -/
def needsBody (e : Endpoint) : Bool :=
  match e.requestBody with
  | some body => body.required
  | none => false

/-- How the query may be left out. An argument that may be left out cannot stand before one that is
needed, so it has a default there. -/
def queryPresence (e : Endpoint) : Presence :=
  if e.queryParameters.any (·.required) then .required
  else if needsBody e then .defaulted
  else .optional

/-- The arguments of the method of an endpoint. -/
def arguments (reg : Registry) (e : Endpoint) : List Argument :=
  (if e.pathParameters.isEmpty then []
    else [⟨"params", .required, pathType reg e.pathParameters⟩]) ++
  (if e.queryParameters.isEmpty then []
    else [⟨"query", queryPresence e, queryType reg e.queryParameters⟩]) ++
  (match e.requestBody with
    | some body =>
      [⟨"body", if body.required then .required else .optional, contentType reg body.content⟩]
    | none => [])

/-- The opening lines of a method. -/
def opening (method : String) (args : List Argument) (result : String) (level : Int) : String :=
  let before := Text.indent level ++ "async " ++ method ++ "("
  let after := "): Promise<" ++ result ++ "> \x7b\n"
  if args.isEmpty then before ++ after
  else
    before ++ "\n" ++
      String.intercalate ",\n" (args.map fun a => Text.indent (level + 1) ++ a.render) ++ "\n" ++
      Text.indent level ++ after

end Signature

end TypedClient
