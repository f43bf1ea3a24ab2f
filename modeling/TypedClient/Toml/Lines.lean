import TypedClient.Text.Blank
import TypedClient.Text.Case
import TypedClient.Text.Split
import TypedClient.Text.AlphanumericTable

/-!
# Logical lines of a TOML text

A first pass over the text checks the keys and the quotes, writes blanks for comments, and joins the
lines of an array that spans several. The line break after the opening quotes of a long string is
dropped by moving the quotes over it. What is left can be read line by line; only long strings still
span lines.
-/

namespace TypedClient.Toml

/-- Why a text is refused, or a value is not written. -/
inductive Fault where
  /-- The text breaks a rule of the format. -/
  | malformed
  /-- A character is asked for where the text has ended. -/
  | endOfText
  /-- A number is too large for the machine: one that denotes a character, or a fraction. -/
  | tooLarge
  /-- A value is used as a table and is none. -/
  | notATable
  /-- A table is used as a list of tables. -/
  | notAList
  /-- A string that goes on in the next line belongs to the empty key. -/
  | namelessString
  /-- A moment has an offset of a day or more. -/
  | offset
  /-- A number has too many digits to be written. -/
  | oversized
  /-- An escape denotes a lone surrogate. -/
  | unsupported
  deriving DecidableEq, Repr

/-- How far the key at the beginning of a line has been read. -/
inductive KeyPhase where
  | none | inside | after
  deriving DecidableEq

/-- The state of the first pass. `before` is what has been written, nearest character first. The
text is taken as a ring: what stands before its first character is its end. -/
structure Pass where
  ending : List Char
  before : List Char
  arrays : Int
  quote : Option Char
  isLong : Bool
  tableList : Bool
  table : Bool
  lineStart : Bool
  key : KeyPhase
  dotted : Bool
  comment : Bool

namespace Pass

/-- The state before a text. -/
def start (text : List Char) : Pass :=
  ⟨text.reverse, [], 0, none, false, false, false, true, .none, false, false⟩

/-- What stands before the position, nearest character first. -/
def behind (p : Pass) : List Char :=
  if p.before.isEmpty then p.ending else p.before

/-- The number of given characters right before the position. -/
def runBefore (p : Pass) (c : Char) : Nat :=
  (p.behind.takeWhile (· = c)).length

/-- Whether a character belongs to a bare key. -/
def isBareKeyChar (c : Char) : Bool :=
  Text.inRanges Text.alphanumericRanges c || c = '_' || c = '-'

/-- The phase after a separator in a key, given the character that follows. -/
def phaseBefore (next : Option Char) (phase : KeyPhase) : Except Fault KeyPhase :=
  match next with
  | none => .error .endOfText
  | some n => .ok (if Text.isBlank n || n = '.' then phase else .inside)

/-- One character of a key. The second part tells whether the character is done with; an equals sign
is not. -/
def keyChar (p : Pass) (c : Char) (next : Option Char) : Except Fault (Pass × Bool) :=
  if c = '\n' then .error .malformed
  else
    match p.quote with
    | some q =>
      if c = q && p.runBefore '\\' % 2 = 0 then .ok ({ p with key := .after, quote := none }, true)
      else .ok (p, true)
    | none =>
      if p.key = .inside && Text.isBlank c then .ok ({ p with key := .after }, true)
      else if p.key = .inside && c = '.' then .ok ({ p with dotted := true }, true)
      else if p.key = .inside && isBareKeyChar c then .ok (p, true)
      else if p.key = .inside && p.dotted && p.before.head? = some '.' && (c = '"' || c = '\'') then
        .ok ({ p with quote := some c }, true)
      else if p.key = .after && Text.isBlank c then
        if p.dotted then (phaseBefore next .after).map fun k => ({ p with key := k }, true)
        else .ok (p, true)
      else if p.key = .after && c = '.' then
        (phaseBefore next .after).map fun k => ({ p with key := k, dotted := true }, true)
      else if c = '=' then .ok ({ p with key := .none, dotted := false }, false)
      else .error .malformed

/-- The state after a single quote. Three in a row begin or end a long string. -/
def singleQuote (p : Pass) : Pass :=
  let isLong := if 2 ≤ p.runBefore '\'' then !p.isLong else p.isLong
  let isOpen := if 2 ≤ p.runBefore '\'' then isLong else p.quote.isNone
  { p with isLong := isLong, quote := if isOpen then some '\'' else none }

/-- The state after a double quote. One behind an odd number of backslashes is part of the string.
-/
def doubleQuote (p : Pass) : Pass :=
  let run := min (p.runBefore '"') 2
  let slashes := ((p.behind.drop run).takeWhile (· = '\\')).length
  let escaped := run != 1 && slashes % 2 = 1
  if escaped then p
  else
    let isLong := if run = 2 then !p.isLong else p.isLong
    let isOpen := if run = 2 then isLong else p.quote.isNone
    { p with isLong := isLong, quote := if isOpen then some '"' else none }

/-- The state after a bracket outside strings. At the beginning of a line it opens the name of a
table or of a list of tables. -/
def bracket (p : Pass) (c : Char) (next : Option Char) : Pass :=
  if c = '[' && !p.table && !p.tableList then
    if p.lineStart then
      if next = some '[' then { p with tableList := true } else { p with table := true }
    else { p with arrays := p.arrays + 1 }
  else if c = ']' then
    if p.table then { p with table := false }
    else if p.tableList then
      if p.before.head? = some ']' then { p with tableList := false } else p
    else { p with arrays := p.arrays - 1 }
  else p

/-- What is written for a line break, and the state after it. -/
def lineBreak (p : Pass) : Except Fault Pass :=
  if p.quote.isSome || p.isLong then
    if !p.isLong then .error .malformed
    else
      match p.before with
      | a :: b :: rest =>
        if (a = '\'' || a = '"') && a = b then
          let rest := match rest with
            | c :: more => if c = a then ' ' :: more else rest
            | [] => []
          .ok { p with before := a :: a :: b :: rest }
        else .ok { p with before := '\n' :: p.before }
      | _ => .ok { p with before := '\n' :: p.before }
  else if p.arrays != 0 then .ok { p with before := ' ' :: p.before }
  else .ok { p with before := '\n' :: p.before, lineStart := true }

/-- The state after a character that is written as it is. The first one of a line begins a key. -/
def written (p : Pass) (c : Char) : Except Fault Pass :=
  let p' := { p with before := c :: p.before }
  if p.lineStart && c != ' ' && c != '\t' then
    if p.table || p.tableList then .ok { p' with lineStart := false }
    else if c = '=' then .error .malformed
    else .ok { p' with lineStart := false, key := .inside }
  else .ok p'

/-- The state after one character outside keys. -/
def valueChar (p : Pass) (c : Char) (next : Option Char) : Except Fault Pass :=
  let p := if c = '\'' && p.quote != some '"' then p.singleQuote else p
  let p := if c = '"' && p.quote != some '\'' then p.doubleQuote else p
  if c = '#' && p.quote.isNone && !p.table && !p.tableList then
    .ok { p with comment := true, before := ' ' :: p.before }
  else
    let p := if p.quote.isNone then p.bracket c next else p
    if c = '\n' then p.lineBreak else p.written c

/-- The state after one character, given the one that follows. -/
def step (p : Pass) (c : Char) (next : Option Char) : Except Fault Pass :=
  if p.comment && c != '\n' then .ok { p with before := ' ' :: p.before }
  else
    let p := { p with comment := false }
    if p.key = .none then p.valueChar c next
    else do
      let (p, done) ← p.keyChar c next
      if done then return { p with before := c :: p.before } else p.valueChar c next

/-- The state after a text. -/
def run : List Char → Pass → Except Fault Pass
  | [], p => .ok p
  | c :: rest, p => do
    let p ← p.step c rest.head?
    run rest p

end Pass

/-- The logical lines of a text. -/
def lines (text : List Char) : Except Fault (List (List Char)) := do
  let p ← Pass.run text (Pass.start text)
  if p.key != .none || p.quote.isSome then throw .malformed
  return Text.splitAt '\n' p.before.reverse

end TypedClient.Toml
