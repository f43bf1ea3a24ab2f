import TypedClient.Value.Basic

/-!
# Descriptions

The part of an interface description that has a fixed shape: the version of the format, a title, the
servers, the operations under their paths, and the named parts. Operations and named parts are kept
as values; they are read when endpoints are extracted.
-/

namespace TypedClient

/-- What a description says about itself. -/
structure Info where
  title : String
  version : String
  description : Option String

/-- An address that serves the interface. -/
structure Server where
  url : String
  description : Option String

/-- Parts of a description that are referred to by name. -/
structure Components where
  schemas : List (String × Value)
  parameters : List (String × Value)

/-- A description of an interface. -/
structure Document where
  format : String
  info : Info
  servers : List Server
  paths : List (String × List (String × Value))
  components : Option Components

namespace Document

/-- The address used if a description names no server. -/
def defaultBaseUrl : String := "https://api.example.com"

/-- The address of the first server. -/
def baseUrl (doc : Document) : String :=
  match doc.servers with
  | server :: _ => server.url
  | [] => defaultBaseUrl

/-- The named schemas in the order of the document. -/
def schemas (doc : Document) : List (String × Value) :=
  match doc.components with
  | some components => components.schemas
  | none => []

end Document

end TypedClient
