import TypedClient.Toml.Entry

/-!
# Headings of a TOML text

A line in brackets names the table that the entries after it go into, or begins a new table of a
list. Entering it finds or makes the tables on the way and gives the place of the last one, so that
later entries can be put there.
-/

namespace TypedClient.Toml

open Text

/-- A step from a value to a part of it. -/
inductive Step where
  | entry (name : String)
  | last

/-- A change of the value at a place. A place without a value is refused. -/
def changeAt {α : Type} (change : Value → Except Fault (Value × α)) :
    List Step → Value → Except Fault (Value × α)
  | [], v => change v
  | .entry name :: place, .map entries =>
    match Value.find? entries name with
    | some inner => do
      let (inner, result) ← changeAt change place inner
      return (.map (Value.put entries (.text name) inner), result)
    | none => .error .notATable
  | .last :: place, .list items =>
    match items.getLast? with
    | some inner => do
      let (inner, result) ← changeAt change place inner
      return (.list (items.dropLast ++ [inner]), result)
    | none => .error .endOfText
  | _, _ => .error .notATable

/-- A heading: the names on the way and whether it begins a table of a list. -/
structure Heading where
  names : List String
  ofList : Bool

/-- A name without quotes has one of these characters. -/
def isHeadingChar (c : Char) : Bool :=
  c.isAlphanum || c = '_' || c = '-'

/-- A quoted name, if the text is one. -/
def quotedName? (cs : List Char) : Option (List Char) :=
  let name := trim cs
  if name.length != 1 && name.head? = name.getLast? then some (trimBy 1 name) else none

/-- The quoted name at the beginning of the pieces between points, and the pieces after it. -/
def firstQuotedName (piece : List Char) :
    List (List Char) → Except Fault (List Char × List (List Char))
  | [] =>
    match quotedName? piece with
    | some name => .ok (name, [])
    | none => .error .malformed
  | next :: rest =>
    match quotedName? piece with
    | some name => .ok (name, next :: rest)
    | none => firstQuotedName (piece ++ '.' :: next) rest

/-- The names of a heading, from the pieces between points. The number bounds the pieces. -/
def headingNames : Nat → List (List Char) → Except Fault (List String)
  | 0, _ => .ok []
  | _, [] => .ok []
  | n + 1, piece :: rest =>
    let name := trim piece
    if name.head?.any isQuote then do
      let (name, rest) ← firstQuotedName name rest
      return String.ofList name :: (← headingNames n rest)
    else if !name.isEmpty && name.all isHeadingChar then do
      return String.ofList name :: (← headingNames n rest)
    else .error .malformed

/-- The heading of a line that begins with a bracket. Nothing follows the closing bracket. -/
def heading (line : List Char) : Except Fault Heading :=
  match line.drop 1 with
  | [] => .error .malformed
  | c :: rest =>
    let ofList := c = '['
    let body := if ofList then rest else c :: rest
    let closing := if ofList then [']', ']'] else [']']
    let split (cs : List Char) := if ofList then splitAtPair ']' ']' cs else splitAt ']' cs
    let pieces := split body
    let number := separatorNumber false ((quotedPieces body).map fun p => (split p).length - 1)
    let after := closing.intercalate (pieces.drop number)
    if pieces.length ≤ number || !(trim after).isEmpty then .error .malformed
    else
      let points := splitAt '.' (closing.intercalate (pieces.take number))
      (headingNames points.length points).map (⟨·, ofList⟩)

/-- The tables so far. `implied` are the names of tables that were made on the way to others; one of
them may still get a heading of its own. -/
structure Tables where
  root : Value
  implied : List String

/-- The names that are implied after the last name of a heading is met again, and its value then. -/
def reopen (ofList : Bool) (implied : List String) (name : String) (v : Value) :
    Except Fault (Value × List String) :=
  if implied.contains name then
    if ofList then .error .malformed else .ok (v, implied.erase name)
  else if ofList then
    match v with
    | .list items => .ok (.list (items ++ [.map []]), implied)
    | _ => .error .notAList
  else .error .malformed

/-- The tables with those of a heading made, and the place of the last one. The tables are those
below the value that is given; of a list of tables the last one is entered. -/
def enter (ofList : Bool) : List String → Tables → Except Fault (Tables × List Step)
  | [], tables => .ok (tables, [])
  | name :: rest, ⟨here, implied⟩ => do
    if name.isEmpty then throw .malformed
    let fresh : Value := if rest.isEmpty && ofList then .list [.map []] else .map []
    let below (v : Value) (implied : List String) : Except Fault (Tables × List Step) :=
      match ofList, v with
      | true, .list items =>
        match items.getLast? with
        | none => throw .endOfText
        | some w => do
          let (tables, place) ← enter ofList rest ⟨w, implied⟩
          return (⟨.list (items.dropLast ++ [tables.root]), tables.implied⟩, .last :: place)
      | true, .text s => throw (if s.isEmpty then .endOfText else .notATable)
      | true, .map entries => enter ofList rest ⟨.map entries, implied⟩
      | true, _ => throw .notATable
      | false, v => enter ofList rest ⟨v, implied⟩
    match here with
    | .map entries =>
      let (v, implied) ←
        match Value.find? entries name with
        | some v => if rest.isEmpty then reopen ofList implied name v else pure (v, implied)
        | none => pure (fresh, if rest.isEmpty then implied else implied ++ [name])
      let (tables, place) ← below v implied
      return (⟨.map (Value.put entries (.text name) tables.root), tables.implied⟩,
        .entry name :: place)
    | .list items =>
      match items.getLast? with
      | none => throw .endOfText
      | some (.map entries) =>
        let (tables, place) ← below ((Value.find? entries name).getD fresh) implied
        let changed := Value.put entries (.text name) tables.root
        return (⟨.list (items.dropLast ++ [.map changed]), tables.implied⟩,
          .last :: .entry name :: place)
      | some _ => throw .notATable
    | .text s => throw (if s.isEmpty then .endOfText else .notATable)
    | _ => throw .notATable

end TypedClient.Toml
