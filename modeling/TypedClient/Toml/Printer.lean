import TypedClient.Toml.Lines
import TypedClient.Value.Display

/-!
# Writing TOML texts

The entries of a table are written one per line; tables follow under headings, those of one depth
after those of lesser depth. A string is written as the label of the text between double quotes,
with two changes: the quotes are escaped the other way round, and the mark of two hexadecimal digits
is replaced, because the format has none. The replacement is not reversible: a text with control
characters does not read back, and one that begins with a control character may not be written at
all.
-/

namespace TypedClient.Toml

open Text

/-! ## Strings -/

/-- The text with every two backslashes in a row made one. -/
def halveBackslashes : List Char → List Char
  | '\\' :: '\\' :: rest => '\\' :: halveBackslashes rest
  | c :: rest => c :: halveBackslashes rest
  | [] => []

/-- The text with escaped apostrophes bare and double quotes escaped. -/
def exchangeQuotes : List Char → List Char
  | '\\' :: '\'' :: rest => '\'' :: exchangeQuotes rest
  | '"' :: rest => '\\' :: '"' :: exchangeQuotes rest
  | c :: rest => c :: exchangeQuotes rest
  | [] => []

/-- Two pieces around the mark of two hexadecimal digits, joined by a mark of four or by the bare
letter, as the backslashes before it tell. -/
def joinHexMark (before after : List Char) : List Char :=
  let before := halveBackslashes before
  let endsInSlash := before.getLast? == some '\\'
  let slashes := ((before.drop 1).reverse.takeWhile (· = '\\')).length
  if endsInSlash == (slashes % 2 == 1) then before ++ 'x' :: after
  else before ++ ['u', '0', '0'] ++ after

/-- The pieces between marks joined from the left. An empty first piece is dropped with its mark. -/
def joinHexMarks (piece : List Char) : List (List Char) → Except Fault (List Char)
  | [] => .ok piece
  | next :: rest =>
    if piece.isEmpty then
      match rest with
      | [] => .error .endOfText
      | third :: more =>
        if next.isEmpty then .error .endOfText else joinHexMarks (joinHexMark next third) more
    else joinHexMarks (joinHexMark piece next) rest

/-- The string in double quotes that is written for a text. -/
def quoted (text : String) : Except Fault String :=
  let quote := labelQuote text.toList
  let body := text.toList.flatMap (labelChar quote)
  let body := if quote = '\'' then exchangeQuotes body else body
  match splitAtPair '\\' 'x' body with
  | [] => .ok "\"\""
  | piece :: rest =>
    (joinHexMarks piece rest).map fun cs => String.ofList ('"' :: (cs ++ ['"']))

/-! ## Values -/

/-- A number without zeros in front of its exponent. -/
def floatText (x : Binary64) : String :=
  let rec bare : List Char → List Char
    | 'e' :: '+' :: '0' :: rest => 'e' :: '+' :: bare rest
    | 'e' :: '-' :: '0' :: rest => 'e' :: '-' :: bare rest
    | c :: rest => c :: bare rest
    | [] => []
  String.ofList (bare x.text.toList)

/-- A day or time; universal time is written by a letter. -/
def momentText (m : Moment) : Except Fault String :=
  if !m.hasText then .error .offset
  else
    match m, dropEnd? "+00:00".toList m.iso.toList with
    | .dateTime _ _ _, some rest => .ok (String.ofList (rest ++ ['Z']))
    | _, _ => .ok m.iso

mutual

/-- A value on one line. Of a map only the keys are written. -/
def valueText : Value → Except Fault String
  | .null => .ok "\"None\""
  | .bool b => .ok (if b then "true" else "false")
  | .int i => if Value.hasNumeral i then .ok (toString i) else .error .oversized
  | .float x => .ok (floatText x)
  | .text s => quoted s
  | .moment m => momentText m
  | .list items => (itemTexts items).map fun texts => "[" ++ String.join texts ++ "]"
  | .map entries => (keyTexts entries).map fun texts => "[" ++ String.join texts ++ "]"

def itemTexts : List Value → Except Fault (List String)
  | [] => .ok []
  | v :: vs => do
    let text ← valueText v
    return (" " ++ text ++ ",") :: (← itemTexts vs)

def keyTexts : List (Value × Value) → Except Fault (List String)
  | [] => .ok []
  | (k, _) :: es => do
    let text ← valueText k
    return (" " ++ text ++ ",") :: (← keyTexts es)

end

/-! ## Tables -/

/-- A name as it stands in headings and entries. -/
def nameText (name : String) : Except Fault String :=
  let bare := fun c : Char => c.isAlphanum || c = '_' || c = '-'
  if !name.isEmpty && name.toList.all bare then .ok name else quoted name

/-- The name of an entry. -/
def nameOf : Value → String
  | .text s => s
  | _ => ""

/-- Whether a value is a list of tables. -/
def isTableList : Value → Bool
  | .list items => items.any fun v => match v with
    | .map _ => true
    | _ => false
  | _ => false

/-- The line of an entry. A null is left out, and tables have no line. -/
def entryText (key value : Value) : Except Fault String := do
  let name ← nameText (nameOf key)
  match value with
  | .null | .map _ => return ""
  | v => if isTableList v then return "" else return name ++ " = " ++ (← valueText v) ++ "\n"

/-- A table with a heading: its name, the text of its entries, and the tables in it. -/
structure Section where
  name : String
  text : String
  inner : List (String × List (Value × Value))

/-- The sections of tables and of the tables in them, by depth. The number bounds the depth. -/
def sectionsBelow (read : String → List (Value × Value) → Except Fault Section) :
    Nat → List (String × List (Value × Value)) → Except Fault (List Section)
  | 0, _ => .ok []
  | _, [] => .ok []
  | n + 1, tables => do
    let sections ← tables.mapM fun t => read t.1 t.2
    let next := sections.flatMap fun s => s.inner.map fun t => (s.name ++ "." ++ t.1, t.2)
    return sections ++ (← sectionsBelow read n next)

/-- The section of a table. Lists of tables are written after the other entries, each table under a
heading in double brackets. The number bounds the depth. -/
def sectionOf : Nat → String → List (Value × Value) → Except Fault Section
  | 0, name, _ => .ok ⟨name, "", []⟩
  | n + 1, name, entries => do
    let start := if name.isEmpty || name.endsWith "." then name else name ++ "."
    let lines ← entries.mapM fun e => entryText e.1 e.2
    let lists ← entries.mapM fun e => do
      match isTableList e.2, e.2 with
      | true, .list items =>
        let full := start ++ (← nameText (nameOf e.1))
        let texts ← items.mapM fun item => do
          match item with
          | .map inner =>
            let s ← sectionOf n full inner
            let tables := s.inner.map fun t => (full ++ "." ++ t.1, t.2)
            let below ← sectionsBelow (sectionOf n) n tables
            let texts := below.map fun b =>
              if b.text.isEmpty then "" else "[" ++ b.name ++ "]\n" ++ b.text
            if s.text.startsWith "[" then
              return "[[" ++ full ++ "]]\n\n" ++ s.text ++ String.join texts
            else return "[[" ++ full ++ "]]\n" ++ s.text ++ "\n" ++ String.join texts
          | .text t => if t.isEmpty then return "[[" ++ full ++ "]]\n\n" else throw .notATable
          | .list [] => return "[[" ++ full ++ "]]\n\n"
          | _ => throw .notATable
        return String.join texts
      | _, _ => return ""
    let inner ← entries.filterMapM fun e => do
      match e.2 with
      | .map inner => return some ((← nameText (nameOf e.1)), inner)
      | _ => return none
    return ⟨name, String.join lines ++ String.join lists, inner⟩

/-- The text with a section added after a blank line. A section that holds nothing but tables has no
heading. -/
def addSection (text : String) (s : Section) : String :=
  if s.text.isEmpty && !s.inner.isEmpty then text
  else
    let gap := if text.isEmpty || text.endsWith "\n\n" then "" else "\n"
    text ++ gap ++ "[" ++ s.name ++ "]\n" ++ s.text

mutual

/-- How deep a value nests. -/
def depth : Value → Nat
  | .list items => depthOfItems items + 1
  | .map entries => depthOfEntries entries + 1
  | _ => 0

def depthOfItems : List Value → Nat
  | [] => 0
  | v :: vs => max (depth v) (depthOfItems vs)

def depthOfEntries : List (Value × Value) → Nat
  | [] => 0
  | (_, v) :: es => max (depth v) (depthOfEntries es)

end

/-- The text of a table. -/
def write (entries : List (Value × Value)) : Except Fault String := do
  let bound := depth (.map entries) + 1
  let top ← sectionOf bound "" entries
  let below ← sectionsBelow (sectionOf bound) bound top.inner
  return below.foldl addSection top.text

end TypedClient.Toml
