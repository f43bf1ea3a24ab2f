/-!
# Positions in a YAML text

A cursor is the rest of the text with the line and the column it begins at. Indentation is read off
the column, so a cursor moves one character at a time.
-/

namespace TypedClient.Yaml

/-- Why a text is refused. -/
inductive Fault where
  /-- The text breaks a rule of the format. -/
  | malformed
  /-- A scalar does not denote a number or a day that exists. -/
  | impossible
  /-- A number is too large for the machine: one that denotes a character, or a power of sixty. -/
  | tooLarge
  /-- A scalar tagged as a number is empty. -/
  | emptyNumber
  /-- A scalar tagged as a boolean is no boolean word. -/
  | notBoolean
  /-- A scalar tagged as a time does not have the form of one. -/
  | notTime
  /-- A mapping is tagged as a time. -/
  | timeNotScalar
  /-- A node has no place among the values: bytes, a set, a list of pairs, or a node inside itself;
  or an escaped character stands for a lone surrogate here. -/
  | unsupported
  deriving DecidableEq, Repr

/-- The characters that break a line. -/
def isBreak (c : Char) : Bool :=
  c = '\n' || c = '\r' || c = '\u0085' || c = '\u2028' || c = '\u2029'

/-- A position in a text. -/
structure Cursor where
  rest : List Char
  index : Nat
  line : Nat
  column : Nat

namespace Cursor

/-- The beginning of a text. -/
def ofText (text : List Char) : Cursor := ⟨text, 0, 0, 0⟩

/-- The next character. -/
def peek (cur : Cursor) : Option Char := cur.rest.head?

/-- The character that follows the next `n` ones. -/
def peekAt (cur : Cursor) (n : Nat) : Option Char := (cur.rest.drop n).head?

/-- The position after the next character. A byte order mark takes no column. -/
def advance (cur : Cursor) : Cursor :=
  match cur.rest with
  | [] => cur
  | c :: rest =>
    if isBreak c && !(c = '\r' && rest.head? = some '\n') then
      ⟨rest, cur.index + 1, cur.line + 1, 0⟩
    else ⟨rest, cur.index + 1, cur.line, if c = '\ufeff' then cur.column else cur.column + 1⟩

/-- The position after the next `n` characters. -/
def advanceBy : Nat → Cursor → Cursor
  | 0, cur => cur
  | n + 1, cur => advanceBy n cur.advance

/-- The longest run of characters of a class, and the position after it. -/
def takeWhile (p : Char → Bool) (cur : Cursor) : List Char × Cursor :=
  let run := cur.rest.takeWhile p
  (run, cur.advanceBy run.length)

/-- The position after a run of blanks. -/
def skipBlanks (cur : Cursor) : Cursor :=
  (cur.takeWhile (· = ' ')).2

/-- The position after the line up to its break. -/
def skipLine (cur : Cursor) : Cursor :=
  (cur.takeWhile (!isBreak ·)).2

/-- A line break, written as a line feed unless it is a line or paragraph separator, and the
position after it. -/
def lineBreak? (cur : Cursor) : Option (List Char × Cursor) :=
  match cur.rest with
  | '\r' :: '\n' :: _ => some (['\n'], cur.advanceBy 2)
  | c :: _ =>
    if c = '\u2028' || c = '\u2029' then some ([c], cur.advance)
    else if isBreak c then some (['\n'], cur.advance)
    else none
  | [] => none

end Cursor

/-- A line break or the end of the text. -/
def atBreakOrEnd : Option Char → Bool
  | none => true
  | some c => isBreak c

/-- A blank, a line break or the end of the text. -/
def atBlankOrEnd : Option Char → Bool
  | none => true
  | some c => c = ' ' || isBreak c

/-- A blank, a tab, a line break or the end of the text. -/
def atSpaceOrEnd : Option Char → Bool
  | none => true
  | some c => c = ' ' || c = '\t' || isBreak c

namespace Cursor

/-- Whether a line of three given characters and nothing that goes on with them begins here. -/
def atMarker (marker : Char) (cur : Cursor) : Bool :=
  match cur.rest with
  | a :: b :: c :: rest => a = marker && b = marker && c = marker && atSpaceOrEnd rest.head?
  | _ => false

/-- Whether a document separator begins here. -/
def atSeparator (cur : Cursor) : Bool :=
  cur.atMarker '-' || cur.atMarker '.'

end Cursor

end TypedClient.Yaml
