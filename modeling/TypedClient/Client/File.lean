import TypedClient.Client.Method
import TypedClient.Endpoint.Extraction

/-!
# The client file

The file opens with a comment and the types of results, declares a type for every named schema, and
defines the client class with one method per endpoint, which it exports. A method whose name an
earlier endpoint has taken is reported.
-/

namespace TypedClient

/-- Why a class is not written. -/
inductive ClassFault where
  /-- A status code of digits that form no numeral. -/
  | status (code : String)
  /-- A choice in the type of a signature has no text. -/
  | noText
  deriving DecidableEq

/-- What the client file is written from. -/
structure Interface where
  title : String
  baseUrl : String
  sourceUrl : Option String
  registry : Registry

namespace Interface

open Text

def className (i : Interface) : String :=
  Name.clientClass i.title Name.classEnding

/-- The line that names the source, if there is one. -/
def sourceLines (i : Interface) : List String :=
  match i.sourceUrl with
  | some url => if url.isEmpty then [] else [" * Source: " ++ inComment url]
  | none => []

/-- The comment at the head of the file and the types of results. -/
def header (i : Interface) : String :=
  Scaffold.ofLines (Scaffold.headerOpening ++ i.sourceLines ++ Scaffold.headerRest ++
    Scaffold.resultTypes)

/-- The declaration of a named schema. In its own declaration a name is not spelled out. -/
def declaration (reg : Registry) (name : String) (s : Schema) : String :=
  "export type " ++ name ++ " = " ++ s.typeText reg [name] 0 ++ ";\n\n"

/-- The declarations of all named schemas. -/
def types (i : Interface) : String :=
  "// Type definitions\n\n" ++
    String.join (i.registry.entries.map fun e => declaration i.registry e.1 e.2)

/-- The choices that the declarations list. -/
def literals (i : Interface) : List Value :=
  i.registry.entries.flatMap fun e => e.2.literals i.registry [e.1]

/-- The number of repetitions of a failing request, unless it is set. -/
def defaultRetries : Nat := 3

/-- The milliseconds before the first repetition, unless they are set. -/
def defaultDelay : Nat := 1000

/-- The lines that declare the fields of the class. -/
def fieldLines (i : Interface) : List String := [
  "private baseUrl: string = " ++ asciiQuoted i.baseUrl ++ ";",
  "private apiKey?: string;",
  "private bearerToken?: string;",
  "private requestInterceptors: RequestInterceptor[] = [];",
  "private responseInterceptors: ResponseInterceptor[] = [];",
  "private maxRetries: number = " ++ toString defaultRetries ++ ";",
  "private retryDelay: number = " ++ toString defaultDelay ++ ";"]

def fields (i : Interface) (level : Int) : String :=
  String.join (i.fieldLines.map fun line => indent level ++ line ++ "\n") ++ "\n"

/-- The members of the class that every client has. -/
def scaffold : List String :=
  [Scaffold.constructorLines, Scaffold.authMethods, Scaffold.interceptorMethods,
    Scaffold.retryMethods, Scaffold.internalFetch].map Scaffold.ofLines

def exportLine (i : Interface) : String :=
  "export default " ++ i.className ++ ";\n"

/-- The notices about endpoints whose method name an earlier endpoint has, or one of the given. -/
def repeatedMethods (taken : List String) : List Endpoint → List Notice
  | [] => []
  | e :: rest =>
    let name := Name.method e.operationId
    (if taken.contains name then [.repeatedMethod name e.verb e.path] else []) ++
      repeatedMethods (name :: taken) rest

/-- The methods of the endpoints in order. -/
def methods (i : Interface) (endpoints : List Endpoint) (level : Int) :
    Except String (List String) :=
  endpoints.mapM fun e => Method.text i.registry e level

/-- The text of the client class around its methods. -/
def classText (i : Interface) (methods : List String) (level : Int) : String :=
  indent level ++ "export class " ++ i.className ++ " \x7b\n" ++
    i.fields (level + 1) ++
    String.join (scaffold.map (indentBlock · (level + 1))) ++
    String.join methods ++
    indent level ++ "\x7d\n\n"

/-- The client class. -/
def clientClass (i : Interface) (endpoints : List Endpoint) (level : Int) :
    Except ClassFault String := do
  Value.requireTexts .noText (endpoints.flatMap (Signature.literals i.registry))
  let methods ← (i.methods endpoints (level + 1)).mapError .status
  return i.classText methods level

end Interface

end TypedClient
