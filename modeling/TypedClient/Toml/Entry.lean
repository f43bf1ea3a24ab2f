import TypedClient.Toml.Scalar

/-!
# Entries of a TOML text

An entry is a key, an equals sign and a value; the key may name a path of tables. Arrays and inline
tables are cut into their items before these are read, and what the cuts look at is the punctuation
and the quotes, not the values. A long string that is not closed on the line of its entry is handed
back to be continued.
-/

namespace TypedClient.Toml

open Text

/-! ## Cutting at punctuation outside quotes -/

/-- Whether a character begins and ends strings. -/
def isQuote (c : Char) : Bool :=
  c = '"' || c = '\''

/-- The pieces of a text between apostrophes, where an open apostrophe takes over the pieces between
double quotes until it is closed. The second part is what is not taken over. -/
def closeApostrophes : List (List Char) → List (List Char) → List (List Char) × List (List Char)
  | pieces, [] => (pieces, [])
  | pieces, next :: rest =>
    if pieces.length % 2 = 1 then (pieces, next :: rest)
    else
      let last := (pieces.getLast?.getD []) ++ '"' :: next
      closeApostrophes (pieces.dropLast ++ splitAt '\'' last) rest

/-- The pieces of a line that are in turn outside and inside quotes. -/
def quotedPieces (line : List Char) : List (List Char) :=
  match splitAt '"' line with
  | first :: next :: rest =>
    if first.contains '\'' then
      let (pieces, others) := closeApostrophes (splitAt '\'' first) (next :: rest)
      match others with
      | [] => pieces
      | other :: more => pieces ++ splitAt '\'' other ++ more
    else first :: next :: rest
  | [piece] => splitAt '\'' piece
  | [] => []

/-- The number, from one, of the first separator outside quotes. The numbers are those of separators
in the pieces, which are in turn outside and inside. -/
def separatorNumber : Bool → List Nat → Nat
  | _, [] => 1
  | quoted, n :: rest => if !quoted && 0 < n then 1 else n + separatorNumber (!quoted) rest

/-- Whether a text can be the value of an entry, judged by how it begins. -/
def isValueStart (cs : List Char) : Except Fault Bool :=
  match cs with
  | [] => .ok true
  | c :: _ =>
    if [' ', '\t', '\'', '"', '[', '{'].contains c || trim cs = "true".toList ||
        trim cs = "false".toList || (float? cs).isSome then .ok true
    else (moment? cs).map fun m => m.isSome || (clockParts? cs).isSome

/-- A line cut in two at an equals sign. -/
structure Cut where
  key : List Char
  value : List Char
  /-- The value and those of all cuts tried before are tidy as numbers. -/
  isTidy : Bool

/-- The first cut with a value that can begin an entry. -/
def firstCut (isTidySoFar : Bool) : List (List Char × List Char) → Except Fault Cut
  | [] => .error .malformed
  | (key, value) :: rest => do
    let isTidy := isTidySoFar && isTidy value
    if ← isValueStart value then return ⟨trim key, trim value, isTidy⟩ else firstCut isTidy rest

/-- The key and the value of an entry. The key ends at the first equals sign outside quotes after
which a value can begin; a value that begins with a digit is tried without its underscores first. -/
def keyAndValue (line : List Char) : Except Fault Cut := do
  let pieces := splitAt '=' line
  let count := pieces.length - 1
  let first := min count (separatorNumber false ((quotedPieces line).map (·.count '=')))
  let cut (n : Nat) := (['='].intercalate (pieces.take n), ['='].intercalate (pieces.drop n))
  let (key, value) := cut first
  let plain := if value.head?.any Decimal.isAsciiDigit then value.filter (· != '_') else value
  if ← isValueStart plain then return ⟨trim key, trim plain, isTidy value⟩
  else if first = count then firstCut (isTidy value) [cut first]
  else firstCut (isTidy value) ((List.range' (first + 1) (count - first)).map cut)

/-! ## Keys -/

/-- The names of a key that contains a point. -/
def dottedNames (key : List Char) : List (List Char) :=
  if key.any isQuote then
    let rec names : Bool → List (List Char) → List (List Char)
      | _, [] => []
      | true, piece :: rest => piece :: names false rest
      | false, piece :: rest => (splitAt '.' piece).map trim ++ names true rest
    names false (quotedPieces key)
  else splitAt '.' key

/-- The path of tables that a key names and the name in the last of them. -/
def keyPath (key : List Char) : Except Fault (List String × String) :=
  if key.contains '.' then
    match (dottedNames key).reverse.dropWhile List.isEmpty with
    | [] => .error .endOfText
    | last :: path =>
      .ok ((path.reverse.filter fun n => !n.isEmpty).map String.ofList, String.ofList (trim last))
  else
    match key with
    | [] => .error .endOfText
    | c :: _ =>
      if isQuote c && key.getLast? = some c then
        (unescape (trimBy 1 key)).map fun name => ([], String.ofList name)
      else .ok ([], String.ofList key)

/-- A change of the table at the end of a path. Tables that are missing on the way are made. -/
def within {α : Type} (change : Value → Except Fault (Value × α)) :
    List String → Value → Except Fault (Value × α)
  | [], table => change table
  | name :: path, .map entries => do
    let (inner, result) ← within change path ((Value.find? entries name).getD (.map []))
    return (.map (Value.put entries (.text name) inner), result)
  | _ :: _, _ => .error .notATable

/-- The table with a new name set. A known name is refused. -/
def define (name : String) (value table : Value) : Except Fault Value :=
  match table with
  | .map entries =>
    if (Value.find? entries name).isSome then .error .malformed
    else .ok (.map (Value.put entries (.text name) value))
  | _ => .error .malformed

/-! ## Long strings -/

/-- A long string whose end is on a later line. `joined` tells that its last line ended in a
backslash. -/
structure OpenString where
  name : String
  text : List Char
  joined : Bool

/-- The text of a long string up to the end of a line. A backslash at the end joins the next line.
-/
def OpenString.ofLine (name : String) (text : List Char) : OpenString :=
  if endsEscaping text then ⟨name, text.dropLast, true⟩ else ⟨name, text ++ ['\n'], false⟩

/-- Whether the first item of an array is a string. -/
def isStringArray (cs : List Char) : Bool :=
  (trim (trimBy 1 cs)).head?.any isQuote

/-- The last item of an array of strings; what precedes it is given in reverse order. -/
def lastString (item : List Char) : List (List Char) → Except Fault (List Char)
  | [] => .ok item
  | before :: rest =>
    match item with
    | [] => .error .endOfText
    | c :: _ => if isQuote c then .ok item else lastString (before ++ ',' :: item) rest

/-- Whether a text begins a long string and does not end it. -/
def opensString (cs : List Char) : Except Fault Bool :=
  match cs with
  | [] => .error .endOfText
  | a :: rest =>
    if !isQuote a then .ok false
    else
      match rest with
      | [] => .error .endOfText
      | b :: rest =>
        if b != a then .ok false
        else
          match rest with
          | [] => .error .endOfText
          | c :: _ => .ok (c = a && !(5 < cs.length && (cs.reverse.take 3).all (· = a)))

/-- Whether a value begins a long string that goes on in the next line. In an array of strings that
is not closed this is up to its last item. -/
def isContinued (value : List Char) : Except Fault Bool :=
  if value.length < 3 then .ok false
  else if value.head? = some '[' && value.getLast? != some ']' && isStringArray value then
    match (splitAt ',' (trim (value.drop 1))).reverse with
    | [] => opensString []
    | last :: before => (lastString last before).bind opensString
  else opensString value

/-! ## Items of arrays -/

/-- Whether a text ends with the quote it begins with. -/
def isBounded (cs : List Char) : Bool :=
  cs.isEmpty || (cs.head? = cs.getLast? && !endsEscaping (trimBy 1 cs))

/-- Whether a text is the whole of a string, and not the beginning of one that contains a comma. -/
def isWhole (cs : List Char) : Bool :=
  let opensLong :=
    match cs, cs.reverse with
    | a :: b :: c :: _, _ :: y :: z :: _ => a = b && b = c && y != a && z != a
    | _, _ => false
  isBounded cs && !opensLong

/-- The items of an array of strings, from the pieces between commas. -/
def joinStrings : Bool → List Char → List (List Char) → Except Fault (List (List Char))
  | joined, item, [] =>
    if joined && !isWhole (trim item) then .error .endOfText else .ok [item]
  | _, item, next :: rest =>
    if isWhole (trim item) then (joinStrings false next rest).map (item :: ·)
    else joinStrings true (item ++ ',' :: next) rest

/-- The pieces between commas outside brackets. -/
def splitNested : Int → List Char → List (List Char)
  | _, [] => [[]]
  | depth, c :: rest =>
    if c = ',' && depth = 0 then [] :: splitNested depth rest
    else
      let depth := if c = '[' then depth + 1 else if c = ']' then depth - 1 else depth
      match splitNested depth rest with
      | [] => [[c]]
      | piece :: more => (c :: piece) :: more

/-- The inline tables of an array, each up to the brace that closes it. `before` is what has been
read of a table, nearest character first; without it the next opening brace is looked for. -/
def splitTables : Option (List Char) → Nat → Bool → List Char → List (List Char)
  | _, _, _, [] => []
  | none, depth, inString, c :: rest =>
    splitTables (if c = '\x7b' then some [c] else none) depth inString rest
  | some before, depth, inString, c :: rest =>
    let escaped := inString && endsEscaping before.reverse
    let inString := if isQuote c && !escaped then !inString else inString
    if c = '\x7b' && !inString then splitTables (some (c :: before)) (depth + 1) inString rest
    else if c != '\x7d' || inString then splitTables (some (c :: before)) depth inString rest
    else if 1 < depth then splitTables (some (c :: before)) (depth - 1) inString rest
    else (c :: before).reverse :: splitTables none depth inString (rest.drop 1)
  termination_by _ _ _ cs => cs.length
  decreasing_by all_goals simp only [List.length_cons, List.length_drop]; omega

/-- The texts of the items of an array. -/
def arrayItems (cs : List Char) : Except Fault (List (List Char)) :=
  let inner := trimBy 1 (trim cs)
  let start := inner.takeWhile (· != '[')
  if inner.contains '[' && (trim start).isEmpty then .ok (splitNested 0 inner)
  else if (trim inner).head? = some '\x7b' then
    match inner with
    | c :: rest => .ok (splitTables (some [c]) (if c = '\x7b' then 1 else 0) false rest)
    | [] => .ok []
  else
    match splitAt ',' inner with
    | item :: rest =>
      if isStringArray (trim cs) then joinStrings false item rest else .ok (item :: rest)
    | [] => .ok []

/-- The kinds of values that an array does not mix. -/
inductive Kind where
  | text | bool | int | float | day | clock | array | table
  deriving DecidableEq

/-- The kind of a value. -/
def Kind.ofValue : Value → Kind
  | .bool _ => .bool
  | .int _ => .int
  | .float _ => .float
  | .moment (.clock _) => .clock
  | .moment _ => .day
  | .list _ => .array
  | .map _ => .table
  | _ => .text

/-- The values of an array, which are of one kind. Blank items are left out. -/
def readItems (read : List Char → Except Fault Value) (kind : Option Kind) :
    List (List Char) → Except Fault (List Value)
  | [] => .ok []
  | item :: rest =>
    if (trim item).isEmpty then readItems read kind rest
    else do
      let v ← read (trim item)
      if kind.any fun k => k != Kind.ofValue v then throw .malformed
      return v :: (← readItems read (some (Kind.ofValue v)) rest)

/-! ## Entries and inline tables -/

/-- The table after an entry, and the long string that the entry leaves open. The reader of values
is told whether a number is tidy. -/
def readEntry (read : Bool → List Char → Except Fault Value) (table : Value) (line : List Char) :
    Except Fault (Value × Option OpenString) := do
  let ⟨key, value, tidy⟩ ← keyAndValue line
  let (path, name) ← keyPath key
  let set (inner : Value) : Except Fault (Value × Option OpenString) := do
    if ← isContinued value then
      let _ ← define name .null inner
      if name.isEmpty then throw .namelessString
      return (inner, some (.ofLine name value))
    else
      let v ← read tidy value
      return (← define name v inner, none)
  within set path table

/-- Whether an entry of an inline table is complete, judged by the ends of its value. -/
def isComplete (entry : List Char) : Except Fault Bool :=
  match entry.dropWhile (· != '=') with
  | [] => .error .malformed
  | _ :: rest =>
    let value := trim rest
    match value.head?, value.getLast? with
    | some first, some last =>
      .ok ((isQuote first && last = first) || first = '-' || Decimal.isAsciiDigit first ||
        value = "true".toList || value = "false".toList ||
        (first = '[' && last = ']') || (first = '\x7b' && last = '\x7d'))
    | _, _ => .error .endOfText

/-- The entries of an inline table, from the pieces between commas. -/
def joinEntries (entry : List Char) : List (List Char) → Except Fault (List (List Char))
  | [] => do
    if ← isComplete entry then return [entry] else throw .malformed
  | next :: rest => do
    if ← isComplete entry then return entry :: (← joinEntries next rest)
    else joinEntries (entry ++ ',' :: next) rest

/-- The table after entries in a row. Nothing is read behind a long string that is left open. -/
def readEntries (read : Bool → List Char → Except Fault Value) (table : Value) :
    List (List Char) → Except Fault Value
  | [] => .ok table
  | line :: rest => do
    let (table, pending) ← readEntry read table line
    if pending.isSome then return table else readEntries read table rest

/-- The table with the entries of an inline table added. -/
def readInline (read : Bool → List Char → Except Fault Value) (table : Value) (cs : List Char) :
    Except Fault Value := do
  match splitAt ',' (trimBy 1 cs) with
  | [] => return table
  | entry :: rest =>
    if rest.isEmpty && (trim entry).isEmpty then return table
    else readEntries read table (← joinEntries entry rest)

/-- The value of a text that nests at most as deep as the first number says. A number that is not
tidy is refused if the flag says so; the items of an array are taken for tidy. -/
def valueWithin : Nat → Bool → List Char → Except Fault Value
  | 0, _, _ => .error .malformed
  | depth + 1, tidy, cs =>
    let word := lower (String.ofList cs)
    if cs = "true".toList then .ok (.bool true)
    else if cs = "false".toList then .ok (.bool false)
    else if word = "true" || word = "false" then .error .malformed
    else
      match cs with
      | [] => .error .malformed
      | c :: _ =>
        if isQuote c then (string c cs).map fun s => .text (String.ofList s)
        else if c = '[' then do
          return .list (← readItems (valueWithin depth true) none (← arrayItems cs))
        else if c = '\x7b' then readInline (valueWithin depth) (.map []) cs
        else
          match clockParts? cs with
          | some (hour, minute, second, microsecond) =>
            match Clock.ofParts? hour minute second microsecond with
            | some t => .ok (.moment (.clock t))
            | none => .error .malformed
          | none => do
            match ← moment? cs with
            | some m => return .moment m
            | none => if tidy then number cs else throw .malformed

/-- The value of a text, which is a number only if it is tidy. What it contains is shorter than
itself. -/
def value (tidy : Bool) (cs : List Char) : Except Fault Value :=
  valueWithin (cs.length + 1) tidy cs

end TypedClient.Toml
