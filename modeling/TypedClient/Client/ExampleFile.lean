import TypedClient.Client.Call
import TypedClient.Client.Scaffold

/-!
# The example file

The file imports the client class, makes a client, and calls the methods of the first endpoints,
each in a block of its own.
-/

namespace TypedClient.ExampleFile

open Text

/-- The number of endpoints that the file shows. -/
def endpointLimit : Nat := 3

/-- The name of the example file next to a client file. -/
def fileName (clientFile : String) : String :=
  match dropEnd? ".ts".toList clientFile.toList with
  | some stem => String.ofList stem ++ "-example.ts"
  | none => clientFile ++ "-example.ts"

/-- The path under which the example file imports the client. -/
def modulePath (clientFile : String) : String :=
  match dropEnd? ".ts".toList clientFile.toList with
  | some stem => "./" ++ String.ofList stem ++ ".js"
  | none => "./" ++ clientFile

/-- The line of the headline that an example is announced with. -/
def title (e : Endpoint) : String :=
  match lineBodies e.headline.toList with
  | line :: _ => String.ofList line
  | [] => e.operationId

/-- The choices that the file shows. -/
def shownChoices (reg : Registry) (endpoints : List Endpoint) : List Value :=
  (endpoints.take endpointLimit).flatMap (Call.shownChoices reg)

/-- The lines of the example of an endpoint. -/
def exampleLines (reg : Registry) (e : Endpoint) : List String := [
  "",
  "// Example: " ++ title e,
  "\x7b",
  "  " ++ Call.statement Call.fileStyle reg e,
  "",
  "  // Type-safe error handling",
  "  if (result._tag === 'Success') \x7b",
  "    console.log('Success:', result.data);",
  "  \x7d else \x7b",
  "    console.error('API Error:', result.status, result.message);",
  "  \x7d",
  "\x7d"]

/-- The example of an endpoint at a level. -/
def exampleText (reg : Registry) (e : Endpoint) (level : Int) : String :=
  String.join ((exampleLines reg e).map fun line =>
    (if line.isEmpty then "" else indent level ++ line) ++ "\n")

/-- The lines before the first example. -/
def header (className modulePath baseUrl : String) : List String :=
  ["/**", " * Example usage of the generated " ++ className] ++
    Scaffold.exampleTopics ++
    ["import \x7b " ++ className ++ " \x7d from " ++ singleQuoted modulePath ++ ";"] ++
    Scaffold.exampleClientComment ++
    ["const client = new " ++ className ++ "(\x7b", "  baseUrl: " ++ singleQuoted baseUrl ++ ","] ++
    Scaffold.exampleSetup

/-- The text of the example file. -/
def text (reg : Registry) (endpoints : List Endpoint) (className modulePath baseUrl : String) :
    String :=
  Scaffold.ofLines (header className modulePath baseUrl) ++
    String.join ((endpoints.take endpointLimit).map fun e => exampleText reg e 2) ++
    Scaffold.ofLines Scaffold.exampleFooter

end TypedClient.ExampleFile
