import TypedClient.Yaml.Cursor
import TypedClient.Decimal.Reading
import TypedClient.Text.Surrogate

/-!
# Scalars of a YAML text

The three styles of scalars: plain, quoted and block. A line break inside a plain or quoted scalar
is a blank, and empty lines are kept as line breaks. A block scalar keeps its lines, or folds them
in the same way, and is indented deeper than what it belongs to.

Loops over lines take a bound on the number of rounds; the length of the rest of the text is enough,
because each round moves the cursor.
-/

namespace TypedClient.Yaml.Scalar

/-! ## Plain scalars -/

/-- Whether a plain scalar ends before a character. In a flow collection more characters end it. -/
def plainEnds (flow : Bool) (c : Char) (rest : List Char) : Bool :=
  c = ' ' || c = '\t' || isBreak c ||
    (c = ':' && (atSpaceOrEnd rest.head? ||
      (flow && [',', '[', ']', '\x7b', '\x7d'].contains (rest.head?.getD ' ')))) ||
    (flow && [',', '?', '[', ']', '\x7b', '\x7d'].contains c)

/-- The characters of a plain scalar up to the next blank. -/
def plainRun (flow : Bool) : List Char → List Char
  | [] => []
  | c :: rest => if plainEnds flow c rest then [] else c :: plainRun flow rest

/-- The line breaks and blanks up to the next text, and whether a document separator follows. -/
def emptyLines : Nat → Cursor → List Char × Cursor × Bool
  | 0, cur => ([], cur, false)
  | n + 1, cur =>
    match cur.lineBreak? with
    | some (b, next) =>
      if next.atSeparator then (b, next, true)
      else
        let (bs, last, found) := emptyLines n next
        (b ++ bs, last, found)
    | none =>
      if cur.peek = some ' ' then emptyLines n cur.advance
      else ([], cur, false)

/-- What stands for the space after a part of a plain scalar, whether a line was broken, and the
position after it. -/
def plainSpaces (cur : Cursor) : List Char × Bool × Cursor :=
  let (blanks, cur) := cur.takeWhile (· = ' ')
  match cur.lineBreak? with
  | none => (blanks, false, cur)
  | some (b, next) =>
    if next.atSeparator then ([], true, next)
    else
      let (bs, last, separator) := emptyLines (next.rest.length + 1) next
      if separator then ([], true, last)
      else if b != ['\n'] then (b ++ bs, true, last)
      else if bs.isEmpty then ([' '], true, last)
      else (bs, true, last)

/-- A plain scalar: its text, whether a line break follows it, and the position where it ends.
`spaces` is what stands between the parts read so far and the next one. -/
def plain (flow : Bool) (indent : Int) : Nat → List Char → Bool → Cursor → List Char × Bool × Cursor
  | 0, _, broken, cur => ([], broken, cur)
  | n + 1, spaces, broken, cur =>
    let run := if cur.peek = some '#' then [] else plainRun flow cur.rest
    if run.isEmpty then ([], broken, cur)
    else
      let cur := cur.advanceBy run.length
      let (next, broken, cur) := plainSpaces cur
      if next.isEmpty || cur.peek = some '#' || (!flow && (cur.column : Int) < indent) then
        (spaces ++ run, broken, cur)
      else
        let (more, broken, cur) := plain flow indent n next broken cur
        (spaces ++ run ++ more, broken, cur)

/-! ## Quoted scalars -/

/-- The characters that short escapes denote. -/
def escapes : List (Char × Char) := [
  ('0', '\x00'), ('a', '\x07'), ('b', '\x08'), ('t', '\t'), ('\t', '\t'), ('n', '\n'),
  ('v', '\x0b'), ('f', '\x0c'), ('r', '\r'), ('e', '\x1b'), (' ', ' '), ('"', '"'), ('\\', '\\'),
  ('/', '/'), ('N', '\u0085'), ('_', '\u00a0'), ('L', '\u2028'), ('P', '\u2029')]

/-- The number of hexadecimal digits after the letter of an escape. -/
def escapeLengths : List (Char × Nat) := [('x', 2), ('u', 4), ('U', 8)]

/-- The character of a code point. -/
def charOf (n : Nat) : Except Fault Char :=
  if n < 0x110000 then
    if Text.isStandIn (Char.ofNat n) then .error .unsupported else .ok (Text.ofCodePoint n)
  else if n < 0x80000000 then .error .impossible
  else .error .tooLarge

/-- The line breaks between two lines of a quoted scalar. -/
def quotedBreaks : Nat → Cursor → Except Fault (List Char × Cursor)
  | 0, cur => .ok ([], cur)
  | n + 1, cur =>
    if cur.atSeparator then .error .malformed
    else
      let cur := (cur.takeWhile fun c => c = ' ' || c = '\t').2
      match cur.lineBreak? with
      | some (b, next) => (quotedBreaks n next).map fun r => (b ++ r.1, r.2)
      | none => .ok ([], cur)

/-- What stands for the space inside a quoted scalar. -/
def quotedSpaces (cur : Cursor) : Except Fault (List Char × Cursor) :=
  let (blanks, cur) := cur.takeWhile fun c => c = ' ' || c = '\t'
  match cur.lineBreak? with
  | some (b, next) => do
    let (bs, last) ← quotedBreaks (next.rest.length + 1) next
    if b != ['\n'] then return (b ++ bs, last)
    else if bs.isEmpty then return ([' '], last)
    else return (bs, last)
  | none => if cur.rest.isEmpty then .error .malformed else .ok (blanks, cur)

/-- The characters that an escape after its backslash stands for. -/
def escape (cur : Cursor) : Except Fault (List Char × Cursor) :=
  match cur.peek with
  | none => .error .malformed
  | some c =>
    match escapes.lookup c, escapeLengths.lookup c with
    | some e, _ => .ok ([e], cur.advance)
    | none, some length =>
      let digits := cur.advance.rest.take length
      match if digits.length = length then Decimal.natOf? 16 digits else none with
      | some n => (charOf n).map fun ch => ([ch], cur.advanceBy (length + 1))
      | none => .error .malformed
    | none, none =>
      match cur.lineBreak? with
      | some (_, next) => quotedBreaks (next.rest.length + 1) next
      | none => .error .malformed

/-- The text of a quoted scalar after its opening quote. -/
def quoted (double : Bool) : Nat → Cursor → Except Fault (List Char × Cursor)
  | 0, _ => .error .malformed
  | n + 1, cur =>
    match cur.rest with
    | [] => .error .malformed
    | c :: rest =>
      if !double && c = '\'' && rest.head? = some '\'' then
        (quoted double n (cur.advanceBy 2)).map fun r => ('\'' :: r.1, r.2)
      else if c = (if double then '"' else '\'') then .ok ([], cur.advance)
      else if double && c = '\\' then do
        let (chars, next) ← escape cur.advance
        let (more, last) ← quoted double n next
        return (chars ++ more, last)
      else if c = ' ' || c = '\t' || isBreak c then do
        let (chars, next) ← quotedSpaces cur
        let (more, last) ← quoted double n next
        return (chars ++ more, last)
      else (quoted double n cur.advance).map fun r => (c :: r.1, r.2)

/-! ## Block scalars -/

/-- What happens to the line breaks at the end of a block scalar. -/
inductive Chomping where
  | clip | strip | keep
  deriving DecidableEq

/-- A sign of chomping, if there is one. -/
def chomping? (cur : Cursor) : Option (Chomping × Cursor) :=
  match cur.peek with
  | some '+' => some (.keep, cur.advance)
  | some '-' => some (.strip, cur.advance)
  | _ => none

/-- A digit for the indentation, if there is one. -/
def increment? (cur : Cursor) : Except Fault (Option (Nat × Cursor)) :=
  match cur.peek with
  | some c =>
    if Decimal.isAsciiDigit c then
      if c = '0' then .error .malformed else .ok (some (c.toNat - '0'.toNat, cur.advance))
    else .ok none
  | none => .ok none

/-- The sign and the digit after the opening of a block scalar, in either order. -/
def indicators (cur : Cursor) : Except Fault (Chomping × Option Nat × Cursor) :=
  match chomping? cur with
  | some (chomping, cur) => do
    match ← increment? cur with
    | some (increment, cur) => return (chomping, some increment, cur)
    | none => return (chomping, none, cur)
  | none => do
    match ← increment? cur with
    | some (increment, cur) =>
      match chomping? cur with
      | some (chomping, cur) => return (chomping, some increment, cur)
      | none => return (.clip, some increment, cur)
    | none => return (.clip, none, cur)

/-- The rest of a line that may hold a comment. -/
def commentLine (cur : Cursor) : Except Fault Cursor :=
  let cur := cur.skipBlanks
  let cur := if cur.peek = some '#' then cur.skipLine else cur
  if atBreakOrEnd cur.peek then .ok ((cur.lineBreak?.map (·.2)).getD cur) else .error .malformed

/-- The empty lines at the beginning of a block scalar, and the greatest column met in them. -/
def leadingLines : Nat → Nat → Cursor → List Char × Nat × Cursor
  | 0, deepest, cur => ([], deepest, cur)
  | n + 1, deepest, cur =>
    match cur.lineBreak? with
    | some (b, next) =>
      let (bs, deepest, last) := leadingLines n deepest next
      (b ++ bs, deepest, last)
    | none =>
      if cur.peek = some ' ' then leadingLines n (max deepest cur.advance.column) cur.advance
      else ([], deepest, cur)

/-- The position after the blanks up to a column. -/
def skipTo (column : Nat) : Nat → Cursor → Cursor
  | 0, cur => cur
  | n + 1, cur =>
    if cur.column < column && cur.peek = some ' ' then skipTo column n cur.advance else cur

/-- The empty lines between two lines of a block scalar, and the position of the next line's text.
-/
def blockBreaks (column : Nat) : Nat → Cursor → List Char × Cursor
  | 0, cur => ([], cur)
  | n + 1, cur =>
    let cur := skipTo column column cur
    match cur.lineBreak? with
    | some (b, next) =>
      let (bs, last) := blockBreaks column n next
      (b ++ bs, last)
    | none => ([], cur)

/-- The lines of a block scalar from one with text on, and the position where it ends. `breaks` are
the empty lines before it. -/
def blockLines (folded : Bool) (chomping : Chomping) (column : Nat) :
    Nat → List Char → Cursor → List Char × Cursor
  | 0, _, cur => ([], cur)
  | n + 1, breaks, cur =>
    if cur.column = column && !cur.rest.isEmpty then
      let startsWithText := cur.peek != some ' ' && cur.peek != some '\t'
      let (line, cur) := cur.takeWhile (!isBreak ·)
      let (lineBreak, cur) := (cur.lineBreak?).getD ([], cur)
      let (next, cur) := blockBreaks column (cur.rest.length + 1) cur
      if cur.column = column && !cur.rest.isEmpty then
        let joint :=
          if folded && lineBreak = ['\n'] && startsWithText && cur.peek != some ' ' &&
              cur.peek != some '\t' then
            if next.isEmpty then [' '] else []
          else lineBreak
        let (more, last) := blockLines folded chomping column n next cur
        (breaks ++ line ++ joint ++ more, last)
      else
        let tail :=
          match chomping with
          | .strip => []
          | .clip => lineBreak
          | .keep => lineBreak ++ next
        (breaks ++ line ++ tail, cur)
    else (if chomping = .keep then breaks else [], cur)

/-- A block scalar after its opening character, given the indentation of what it belongs to. -/
def block (folded : Bool) (indent : Int) (cur : Cursor) : Except Fault (List Char × Cursor) := do
  let (chomping, increment, cur) ← indicators cur
  if !atBlankOrEnd cur.peek then throw .malformed
  let cur ← commentLine cur
  let least := (max (indent + 1) 1).toNat
  let bound := cur.rest.length + 1
  match increment with
  | some increment =>
    let column := least + increment - 1
    let (breaks, cur) := blockBreaks column bound cur
    return blockLines folded chomping column bound breaks cur
  | none =>
    let (breaks, deepest, cur) := leadingLines bound 0 cur
    return blockLines folded chomping (max least deepest) bound breaks cur

end TypedClient.Yaml.Scalar
