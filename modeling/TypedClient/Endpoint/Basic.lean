import TypedClient.Schema.Basic

/-!
# Endpoints

An endpoint is one operation of the interface: a verb at a path with its parameters, its request
body and its responses. Notices report what was left out or repeated; they do not stop anything.
-/

namespace TypedClient

/-- The verbs that operations are extracted for. -/
inductive Verb where
  | get | post | put | patch | delete
  deriving DecidableEq, Repr

namespace Verb

/-- The verbs in the order in which the operations of a path are listed. -/
def all : List Verb := [.get, .post, .put, .patch, .delete]

/-- The key of the operation in a document. -/
def keyword : Verb → String
  | .get => "get"
  | .post => "post"
  | .put => "put"
  | .patch => "patch"
  | .delete => "delete"

/-- The verb as it is sent. -/
def upper : Verb → String
  | .get => "GET"
  | .post => "POST"
  | .put => "PUT"
  | .patch => "PATCH"
  | .delete => "DELETE"

end Verb

/-- Where a request carries a parameter. -/
inductive Location where
  | path | query | header | cookie
  deriving DecidableEq, Repr

namespace Location

def all : List Location := [.path, .query, .header, .cookie]

def keyword : Location → String
  | .path => "path"
  | .query => "query"
  | .header => "header"
  | .cookie => "cookie"

end Location

/-- A parameter of an operation. -/
structure Parameter where
  name : String
  location : Location
  required : Bool
  description : Option String
  schema : Option Schema

/-- Schemas under the media types they describe. -/
abbrev Content := List (String × Option Schema)

structure RequestBody where
  required : Bool
  content : Content

structure Response where
  description : String
  content : Content

/-- One operation of the interface. -/
structure Endpoint where
  verb : Verb
  path : String
  operationId : String
  summary : Option String
  description : Option String
  parameters : List Parameter
  requestBody : Option RequestBody
  responses : List (String × Response)
  tags : Option (List String)

namespace Endpoint

def pathParameters (e : Endpoint) : List Parameter :=
  e.parameters.filter (·.location = .path)

def queryParameters (e : Endpoint) : List Parameter :=
  e.parameters.filter (·.location = .query)

/-- The text that introduces the operation. An empty summary counts as none. -/
def headline (e : Endpoint) : String :=
  match e.summary with
  | some s => if s.isEmpty then e.operationId else s
  | none => e.operationId

end Endpoint

/-- What is reported without stopping. -/
inductive Notice where
  | unresolvedParameter (ref : Value)
  | unsupportedLocation (name location : Value)
  | namelessParameter
  | repeatedMethod (name : String) (verb : Verb) (path : String)

end TypedClient
