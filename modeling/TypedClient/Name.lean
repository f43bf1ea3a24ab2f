import TypedClient.Text.Case
import TypedClient.Text.Quoted
import TypedClient.Text.Split

/-!
# Names in the generated client

Names of the document become names of the client: an operation becomes a method in lower snake case,
the title a class in upper camel case, a parameter or schema property a property key. A property
whose name is an identifier is written bare, any other as a double-quoted literal.
-/

namespace TypedClient.Name

open Text

/-- Latin letters and digits. -/
def isWordChar (c : Char) : Bool :=
  c.isAlpha || c.isDigit

/-- Characters that an identifier starts with. -/
def isIdentifierStart (c : Char) : Bool :=
  c.isAlpha || c = '_' || c = '$'

/-- Characters that an identifier goes on with. -/
def isIdentifierPart (c : Char) : Bool :=
  isIdentifierStart c || c.isDigit

/-- The text without a line feed at its end. -/
def dropFinalNewline (cs : List Char) : List Char :=
  if cs.getLast? = some '\n' then cs.dropLast else cs

/-- Whether a name needs no quotes as a property key. A line feed at its end is overlooked. -/
def isIdentifier (name : String) : Bool :=
  match name.toList with
  | [] => false
  | c :: rest => isIdentifierStart c && (dropFinalNewline rest).all isIdentifierPart

/-- A property key in an object type or an object literal. -/
def propertyKey (name : String) : String :=
  if isIdentifier name then name else doubleQuoted name

/-- The access to a property of a target. -/
def memberAccess (target name : String) : String :=
  if isIdentifier name then target ++ "." ++ name else target ++ "[" ++ doubleQuoted name ++ "]"

/-- An underscore between a small letter and a capital after it. -/
def separateWords : List Char → List Char
  | a :: b :: rest =>
    if a.isLower && b.isUpper then a :: '_' :: separateWords (b :: rest)
    else a :: separateWords (b :: rest)
  | cs => cs

/-- An underscore in front of a leading digit. -/
def guardDigit : List Char → List Char
  | [] => []
  | c :: rest => if c.isDigit then '_' :: c :: rest else c :: rest

/-- The name of the client's method for an operation: lower snake case of letters and digits. -/
def method (operationId : String) : String :=
  let words := operationId.toList.map fun c => if isWordChar c then c else '_'
  String.ofList ((separateWords (guardDigit words)).map Char.toLower)

/-- The words of a path in upper camel case, without slashes and braces. -/
def pathWords (path : List Char) : List Char :=
  (splitAt '/' path).flatMap fun segment =>
    capitalize (segment.filter fun c => c != '\x7b' && c != '\x7d')

/-- The identifier of an operation that declares none: its verb and the words of its path. -/
def operationId (verb path : String) : String :=
  lower verb ++ String.ofList (pathWords path.toList)

/-- The letters and digits of a title, the first one in upper case. -/
def titleWords (title : String) : List Char :=
  match title.toList.filter isWordChar with
  | [] => []
  | c :: rest => c.toUpper :: rest

/-- The name of the client class for a title. -/
def clientClass (title : String) (ending : String) : String :=
  String.ofList (guardDigit (titleWords title)) ++ ending

/-- The ending of every client class. -/
def classEnding : String := "Client"

end TypedClient.Name
