import TypedClient.Text.Indent
import TypedClient.Name

/-!
# Template of a request address

A path is cut into groups in braces and the characters between them. The address is a template
literal: a group that names a path parameter becomes a substitution of the parameter's value, and
everything else stands as it is, with backticks escaped.
-/

namespace TypedClient.Url

open Text

/-- A part of a path: a character, or a non-empty group in braces without braces inside. -/
inductive Piece where
  | char (c : Char)
  | group (name : List Char)
  deriving DecidableEq, Repr

/-- The pieces of a path. `pending` holds the characters after an opening brace that may begin a
group. -/
def piecesFrom : Option (List Char) → List Char → List Piece
  | none, [] => []
  | some pending, [] => .char '\x7b' :: pending.map .char
  | none, c :: rest =>
    if c = '\x7b' then piecesFrom (some []) rest else .char c :: piecesFrom none rest
  | some pending, c :: rest =>
    if c = '\x7b' then .char '\x7b' :: (pending.map .char ++ piecesFrom (some []) rest)
    else if c = '\x7d' then
      if pending.isEmpty then .char '\x7b' :: .char '\x7d' :: piecesFrom none rest
      else .group pending :: piecesFrom none rest
    else piecesFrom (some (pending ++ [c])) rest

def pieces (path : List Char) : List Piece :=
  piecesFrom none path

/-- A backslash in front of each backtick. -/
def escapeBackticks (cs : List Char) : List Char :=
  cs.flatMap fun c => if c = '`' then ['\\', '`'] else [c]

/-- The substitution of the value of a path parameter. -/
def substitution (name : String) : String :=
  "$\x7bencodeURIComponent(String(" ++ Name.memberAccess "params" name ++ "))\x7d"

/-- A piece in the template, given the names of the path parameters. -/
def Piece.render (declared : List String) : Piece → List Char
  | .char c => [c]
  | .group name =>
    if String.ofList name ∈ declared then (substitution (String.ofList name)).toList
    else '\x7b' :: (name ++ ['\x7d'])

/-- The path as part of a template literal. -/
def template (declared : List String) (path : String) : String :=
  String.ofList ((pieces (escapeBackticks path.toList)).flatMap (Piece.render declared))

/-- The statement that builds the address. -/
def statement (declared : List String) (path : String) (level : Int) : String :=
  indent level ++ "const url = `$\x7bthis.baseUrl\x7d" ++ template declared path ++ "`;\n"

end TypedClient.Url
