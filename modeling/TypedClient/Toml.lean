import TypedClient.Toml.Heading

/-!
# TOML texts

A text is read line by line: headings change the table that entries go into, entries put values
there, and a long string that is left open takes the lines up to its closing quotes. A line that is
none of these is ignored. The result is the table of the whole text.
-/

namespace TypedClient.Toml

open Text

/-- What has been read: the tables, the place of the one that entries go into, and the long string
that is open. -/
structure Reading where
  tables : Tables
  place : List Step
  pending : Option OpenString

namespace Reading

def start : Reading := ⟨⟨.map [], []⟩, [], none⟩

/-- Whether a line ends what has been left open: a string by its three quotes, an array of strings
by its bracket. -/
def closes (opening : Option Char) (line : List Char) : Except Fault Bool :=
  match line.getLast? with
  | none => if opening = some '[' then .error .endOfText else .ok false
  | last =>
    if opening = some '[' then .ok (last = some ']')
    else .ok (2 < line.length && (line.reverse.take 3).all fun c => some c = opening)

/-- The state after a line of a long string. -/
def continued (r : Reading) (s : OpenString) (line : List Char) : Except Fault Reading := do
  let text := s.text ++ line
  if ← closes text.head? line then
    let v ← value true text
    let (root, _) ← changeAt (fun table =>
      match table with
      | .map entries => .ok (.map (Value.put entries (.text s.name) v), ())
      | _ => .error .notATable) r.place r.tables.root
    return { r with tables := { r.tables with root }, pending := none }
  else return { r with pending := some (.ofLine s.name text) }

/-- The state after a change of the table that entries go into. -/
def change (r : Reading) (f : Value → Except Fault (Value × Option OpenString)) :
    Except Fault Reading := do
  let (root, pending) ← changeAt f r.place r.tables.root
  return { r with tables := { r.tables with root }, pending }

/-- The state after a line that is not part of a long string. -/
def line (r : Reading) (cs : List Char) : Except Fault Reading :=
  match cs with
  | [] => .ok r
  | c :: _ =>
    if c = '[' then do
      let h ← heading cs
      let (tables, place) ← enter h.ofList h.names r.tables
      return { r with tables, place }
    else if c = '\x7b' then
      if cs.getLast? = some '\x7d' then
        r.change fun table => (readInline value table cs).map (·, none)
      else .error .malformed
    else if cs.contains '=' then r.change fun table => readEntry value table cs
    else .ok r

/-- The state after one logical line. White space at its ends counts inside a long string only, and
there only after its first line break. -/
def step (r : Reading) (cs : List Char) : Except Fault Reading :=
  match r.pending with
  | none => r.line (trim cs)
  | some s =>
    let cs := if s.joined || !s.text.contains '\n' then trim cs else cs
    if cs.isEmpty && s.joined then .ok r else r.continued s cs

end Reading

/-- The entries of a text. -/
def read (text : String) : Except Fault (List (Value × Value)) := do
  let r ← (← lines text.toList).foldlM Reading.step Reading.start
  match r.tables.root with
  | .map entries => return entries
  | _ => throw .notATable

end TypedClient.Toml
