/-!
# Operators at the top level of an expression

A scan over the text of a type expression keeps the depth of brackets and knows whether it is inside
a double-quoted literal. An operator `|` or `&` counts when it is met outside literals at depth
zero.
-/

namespace TypedClient.TypeExpr

/-- Where a scan stands with respect to double-quoted literals. -/
inductive Quoting where
  | outside | inside | escaped
  deriving DecidableEq, Repr

/-- The state of a scan. -/
structure Scan where
  depth : Int := 0
  quoting : Quoting := .outside
  deriving DecidableEq, Repr

namespace Scan

def isOpening (c : Char) : Bool :=
  c = '\x7b' || c = '[' || c = '(' || c = '<'

def isClosing (c : Char) : Bool :=
  c = '\x7d' || c = ']' || c = ')' || c = '>'

/-- The state after one more character. -/
def step (s : Scan) (c : Char) : Scan :=
  match s.quoting with
  | .escaped => { s with quoting := .inside }
  | .inside =>
    if c = '\\' then { s with quoting := .escaped }
    else if c = '"' then { s with quoting := .outside }
    else s
  | .outside =>
    if c = '"' then { s with quoting := .inside }
    else if isOpening c then { s with depth := s.depth + 1 }
    else if isClosing c then { s with depth := s.depth - 1 }
    else s

/-- Whether a character is an operator at the top level. -/
def meetsOperator (s : Scan) (c : Char) : Bool :=
  s.quoting = .outside && s.depth = 0 && (c = '|' || c = '&')

/-- Whether a scan meets an operator at the top level. -/
def findsOperator (s : Scan) : List Char → Bool
  | [] => false
  | c :: rest => s.meetsOperator c || (s.step c).findsOperator rest

end Scan

/-- Whether an expression has an operator outside brackets and literals. -/
def hasTopLevelOperator (text : String) : Bool :=
  Scan.findsOperator {} text.toList

end TypedClient.TypeExpr
