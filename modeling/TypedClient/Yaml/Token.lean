import TypedClient.Yaml.Scalar

/-!
# Tokens of a YAML text

The text is cut into tokens from left to right. Indentation opens and closes block collections, so
it becomes tokens too. A key is recognised only by the colon after it; until then the place where it
began is kept as a pending key, and the colon puts the key token in front of what was read since. A
pending key lapses at the end of its line or after 1024 characters.

`Token.ofText` gives the tokens before the first fault together with the fault, so that a reader of
tokens meets faults in the order of the text.
-/

namespace TypedClient.Yaml

/-- A token. -/
inductive Token where
  | version (major minor : Nat)
  | tagHandle (handle address : String)
  | reservedDirective
  | documentStart
  | documentEnd
  | streamEnd
  | blockSequenceStart
  | blockMappingStart
  | blockEnd
  | flowSequenceStart
  | flowSequenceEnd
  | flowMappingStart
  | flowMappingEnd
  | blockEntry
  | flowEntry
  | key
  | value
  | alias (name : String)
  | anchor (name : String)
  | tag (handle : Option String) (suffix : String)
  | scalar (text : String) (isPlain : Bool)
  deriving DecidableEq, Repr

/-- A place where a key may have begun. -/
structure PendingKey where
  /-- The number of tokens before it. -/
  position : Nat
  required : Bool
  index : Nat
  line : Nat
  column : Nat

/-- The state between two tokens. Tokens are kept last first. The pending keys are those of the open
flow collections, innermost first, and of the block around them. -/
structure Lexer where
  cursor : Cursor
  indent : Int
  indents : List Int
  keyAllowed : Bool
  pending : List (Option PendingKey)
  tokens : List Token

namespace Lexer

/-- The state before a text. -/
def start (text : List Char) : Lexer :=
  ⟨Cursor.ofText text, -1, [], true, [none], []⟩

/-- Whether the position lies inside a flow collection. -/
def inFlow (l : Lexer) : Bool := 1 < l.pending.length

def emit (l : Lexer) (t : Token) : Lexer :=
  { l with tokens := t :: l.tokens }

/-- A token put in front of those read since a position. -/
def emitAt (l : Lexer) (position : Nat) (t : Token) : Lexer :=
  let later := l.tokens.length - position
  { l with tokens := l.tokens.take later ++ t :: l.tokens.drop later }

/-- The greatest distance of a colon from the beginning of its key. -/
def keyReach : Nat := 1024

/-- Whether a pending key can no longer be followed by its colon. -/
def isStale (cur : Cursor) (k : PendingKey) : Bool :=
  k.line != cur.line || keyReach < cur.index - k.index

/-- The state without the pending keys that lapsed. A key that is required must not lapse. -/
def dropStale (l : Lexer) : Except Fault Lexer :=
  let stale (k : Option PendingKey) := k.any (isStale l.cursor)
  if l.pending.any fun k => stale k && k.any (·.required) then .error .malformed
  else .ok { l with pending := l.pending.map fun k => if stale k then none else k }

/-- The state without a pending key in the innermost collection. -/
def dropPending (l : Lexer) : Except Fault Lexer :=
  match l.pending with
  | some k :: outer =>
    if k.required then .error .malformed else .ok { l with pending := none :: outer }
  | _ => .ok l

/-- The state with a pending key here, if a key may begin here. -/
def savePending (l : Lexer) : Except Fault Lexer :=
  if l.keyAllowed then do
    let l ← l.dropPending
    let k : PendingKey := ⟨l.tokens.length, !l.inFlow && l.indent = l.cursor.column, l.cursor.index,
      l.cursor.line, l.cursor.column⟩
    return { l with pending := some k :: l.pending.drop 1 }
  else .ok l

/-- The ends of the block collections that are indented deeper than a column. -/
def closeBlocks (column : Int) : List Int → Lexer → Lexer
  | [], l => l
  | outer :: rest, l =>
    if column < l.indent then
      closeBlocks column rest
        { l with indent := outer, indents := rest, tokens := .blockEnd :: l.tokens }
    else l

/-- The state after the block collections deeper than a column have ended. -/
def unwind (l : Lexer) (column : Int) : Lexer :=
  if l.inFlow then l else closeBlocks column l.indents l

/-- The state with a block collection opened at a column, if it is deeper than the open ones. -/
def openBlock (l : Lexer) (column : Int) (position : Nat) (t : Token) : Lexer :=
  if l.indent < column then
    { l with indent := column, indents := l.indent :: l.indents }.emitAt position t
  else l

/-- The position of the next token: blanks, comments and line breaks are passed over. A key may
begin after a line break outside flow collections. -/
def skip : Nat → Bool → Bool → Cursor → Cursor × Bool
  | 0, _, allowed, cur => (cur, allowed)
  | n + 1, flow, allowed, cur =>
    let cur := cur.skipBlanks
    let cur := if cur.peek = some '#' then cur.skipLine else cur
    match cur.lineBreak? with
    | some (_, next) => skip n flow (allowed || !flow) next
    | none => (cur, allowed)

/-! ## Tokens with text -/

/-- Letters, digits, hyphens and underscores. -/
def isNameChar (c : Char) : Bool :=
  c.isAlphanum || c = '-' || c = '_'

/-- The name of an anchor or an alias after its sign. -/
def anchorName (cur : Cursor) : Except Fault (String × Cursor) :=
  let (name, cur) := cur.takeWhile isNameChar
  let ends := atSpaceOrEnd cur.peek ||
    ['?', ':', ',', ']', '\x7d', '%', '@', '`'].contains (cur.peek.getD ' ')
  if name.isEmpty || !ends then .error .malformed else .ok (String.ofList name, cur)

/-- Characters of an address. -/
def isAddressChar (c : Char) : Bool :=
  c.isAlphanum || "-;/?:@&=+$,_.!~*'()[]%".toList.contains c

/-- The bytes that escapes in an address stand for. -/
def addressBytes : Nat → List Char → Except Fault (List UInt8 × List Char)
  | 0, cs => .ok ([], cs)
  | n + 1, cs =>
    match cs with
    | '%' :: a :: b :: rest =>
      match Decimal.natOf? 16 [a, b] with
      | some byte => (addressBytes n rest).map fun r => (byte.toUInt8 :: r.1, r.2)
      | none => .error .malformed
    | '%' :: _ => .error .malformed
    | _ => .ok ([], cs)

/-- The text of an address with its escapes resolved, and the rest. -/
def addressText : Nat → List Char → Except Fault (List Char × List Char)
  | 0, cs => .ok ([], cs)
  | n + 1, cs =>
    match cs with
    | [] => .ok ([], [])
    | c :: rest =>
      if c = '%' then do
        let (bytes, rest) ← addressBytes cs.length cs
        match String.fromUTF8? (ByteArray.mk bytes.toArray) with
        | some s =>
          let (more, rest) ← addressText n rest
          return (s.toList ++ more, rest)
        | none => throw .malformed
      else if isAddressChar c then (addressText n rest).map fun r => (c :: r.1, r.2)
      else .ok ([], cs)

/-- An address. -/
def address (cur : Cursor) : Except Fault (String × Cursor) := do
  let (text, rest) ← addressText (cur.rest.length + 1) cur.rest
  if text.isEmpty then throw .malformed
  return (String.ofList text, cur.advanceBy (cur.rest.length - rest.length))

/-- The handle of a tag: a lone exclamation mark, or a name between two of them. -/
def handle (cur : Cursor) : Except Fault (String × Cursor) :=
  match cur.rest with
  | '!' :: rest =>
    if rest.head? = some ' ' then .ok ("!", cur.advance)
    else
      let name := rest.takeWhile isNameChar
      if (rest.drop name.length).head? = some '!' then
        .ok (String.ofList ('!' :: (name ++ ['!'])), cur.advanceBy (name.length + 2))
      else .error .malformed
  | _ => .error .malformed

/-- The handle and the suffix of a tag. -/
def tagText (cur : Cursor) : Except Fault (Option String × String × Cursor) := do
  let (handle, suffix, cur) ←
    match cur.peekAt 1 with
    | some '<' =>
      let (suffix, cur) ← address (cur.advanceBy 2)
      if cur.peek = some '>' then pure (none, suffix, cur.advance) else throw .malformed
    | next =>
      if atSpaceOrEnd next then pure (none, "!", cur.advance)
      else
        let word := (cur.rest.drop 1).takeWhile fun c => !atBlankOrEnd (some c)
        let (handle, cur) ← if word.contains '!' then handle cur else pure ("!", cur.advance)
        let (suffix, cur) ← address cur
        pure (some handle, suffix, cur)
  if atBlankOrEnd cur.peek then return (handle, suffix, cur) else throw .malformed

/-- A decimal number in a directive. -/
def directiveNumber (cur : Cursor) : Except Fault (Nat × Cursor) :=
  let (digits, cur) := cur.takeWhile Decimal.isAsciiDigit
  match Decimal.natOf? 10 digits with
  | some n => .ok (n, cur)
  | none => .error .malformed

/-- A directive after its percent sign. -/
def directive (cur : Cursor) : Except Fault (Token × Cursor) := do
  let (name, cur) := cur.takeWhile isNameChar
  if name.isEmpty || !atBlankOrEnd cur.peek then throw .malformed
  let (token, cur) ←
    if name = "YAML".toList then do
      let (major, cur) ← directiveNumber cur.skipBlanks
      if cur.peek != some '.' then throw .malformed
      let (minor, cur) ← directiveNumber cur.advance
      if !atBlankOrEnd cur.peek then throw .malformed
      pure (Token.version major minor, cur)
    else if name = "TAG".toList then do
      let (handle, cur) ← handle cur.skipBlanks
      if cur.peek != some ' ' then throw .malformed
      let (text, cur) ← address cur.skipBlanks
      if !atBlankOrEnd cur.peek then throw .malformed
      pure (Token.tagHandle handle text, cur)
    else pure (Token.reservedDirective, cur.skipLine)
  return (token, ← Scalar.commentLine cur)

/-! ## One token -/

/-- The state after a token that ends all block collections. -/
def separator (l : Lexer) : Except Fault Lexer := do
  let l ← (l.unwind (-1)).dropPending
  return { l with keyAllowed := false }

/-- The state after a token of some characters that leaves all else as it is. -/
def mark (l : Lexer) (length : Nat) (t : Token) : Lexer :=
  { l with cursor := l.cursor.advanceBy length }.emit t

/-- The beginning of a flow collection. -/
def openFlow (l : Lexer) (t : Token) : Except Fault Lexer := do
  let l ← l.savePending
  return { l with pending := none :: l.pending, keyAllowed := true }.mark 1 t

/-- The end of a flow collection. Outside of one it is a fault. -/
def closeFlow (l : Lexer) (t : Token) : Except Fault Lexer := do
  if !l.inFlow then throw .malformed
  let l ← l.dropPending
  return { l with pending := l.pending.drop 1, keyAllowed := false }.mark 1 t

/-- A comma. Outside flow collections it is a fault. -/
def flowEntry (l : Lexer) : Except Fault Lexer := do
  if !l.inFlow then throw .malformed
  let l ← l.dropPending
  return { l with keyAllowed := true }.mark 1 .flowEntry

/-- A hyphen or question mark. Outside flow collections it may open a block collection, and it
stands only where a key may begin. -/
def blockMark (l : Lexer) (collection entry : Token) (allowsInFlow : Bool) :
    Except Fault Lexer := do
  if !l.inFlow && !l.keyAllowed then throw .malformed
  let flow := l.inFlow
  let l := if flow then l else l.openBlock l.cursor.column l.tokens.length collection
  let l ← { l with keyAllowed := allowsInFlow || !flow }.dropPending
  return l.mark 1 entry

/-- A colon. It turns the pending key into a key, or stands for itself. -/
def colon (l : Lexer) : Except Fault Lexer :=
  match l.pending with
  | some k :: outer =>
    let l := { l with pending := none :: outer }.emitAt k.position .key
    let l := if l.inFlow then l else l.openBlock k.column k.position .blockMappingStart
    .ok ({ l with keyAllowed := false }.mark 1 .value)
  | _ =>
    if l.inFlow then .ok ({ l with keyAllowed := false }.mark 1 .value)
    else if l.keyAllowed then
      .ok ((l.openBlock l.cursor.column l.tokens.length .blockMappingStart).mark 1 .value)
    else .error .malformed

/-- A token with text that may be a key. -/
def content (l : Lexer) (read : Cursor → Except Fault (Token × Cursor)) : Except Fault Lexer := do
  let l ← l.savePending
  let (token, cur) ← read l.cursor
  return { l with cursor := cur, keyAllowed := false }.emit token

/-- A plain scalar. If a line break follows it a key may begin after it. -/
def plain (l : Lexer) : Except Fault Lexer := do
  let l ← l.savePending
  let (text, broken, cur) :=
    Scalar.plain l.inFlow (l.indent + 1) (l.cursor.rest.length + 1) [] false l.cursor
  return { l with cursor := cur, keyAllowed := broken }.emit (.scalar (String.ofList text) true)

/-- A quoted scalar. -/
def quoted (double : Bool) (l : Lexer) : Except Fault Lexer :=
  l.content fun cur =>
    (Scalar.quoted double (cur.rest.length + 1) cur.advance).map fun r =>
      (.scalar (String.ofList r.1) false, r.2)

/-- A block scalar. -/
def blockScalar (folded : Bool) (l : Lexer) : Except Fault Lexer := do
  let l ← { l with keyAllowed := true }.dropPending
  let (text, cur) ← Scalar.block folded l.indent l.cursor.advance
  return { l with cursor := cur }.emit (.scalar (String.ofList text) false)

/-- The characters that begin other tokens. -/
def indicators : List Char :=
  ['-', '?', ':', ',', '[', ']', '\x7b', '\x7d', '#', '&', '*', '!', '|', '>', '\'', '"', '%', '@',
    '`']

/-- Whether a plain scalar begins with a character that another one follows. -/
def startsPlain (flow : Bool) (c : Char) (next : Option Char) : Bool :=
  !(atSpaceOrEnd (some c) || indicators.contains c) ||
    (!atSpaceOrEnd next && (c = '-' || (!flow && (c = '?' || c = ':'))))

/-- The state after the token that begins at the cursor with a given character. -/
def token (l : Lexer) (c : Char) : Except Fault Lexer :=
  let next := l.cursor.peekAt 1
  let atLineStart := l.cursor.column = 0
  if c = '%' && atLineStart then do
    let l ← l.separator
    let (t, cur) ← directive l.cursor.advance
    return { l with cursor := cur }.emit t
  else if c = '-' && atLineStart && l.cursor.atMarker '-' then
    l.separator.map (·.mark 3 .documentStart)
  else if c = '.' && atLineStart && l.cursor.atMarker '.' then
    l.separator.map (·.mark 3 .documentEnd)
  else if c = '[' then l.openFlow .flowSequenceStart
  else if c = '\x7b' then l.openFlow .flowMappingStart
  else if c = ']' then l.closeFlow .flowSequenceEnd
  else if c = '\x7d' then l.closeFlow .flowMappingEnd
  else if c = ',' then l.flowEntry
  else if c = '-' && atSpaceOrEnd next then l.blockMark .blockSequenceStart .blockEntry true
  else if c = '?' && (l.inFlow || atSpaceOrEnd next) then l.blockMark .blockMappingStart .key false
  else if c = ':' && (l.inFlow || atSpaceOrEnd next) then l.colon
  else if c = '*' then
    l.content fun cur => (anchorName cur.advance).map fun r => (.alias r.1, r.2)
  else if c = '&' then
    l.content fun cur => (anchorName cur.advance).map fun r => (.anchor r.1, r.2)
  else if c = '!' then
    l.content fun cur => (tagText cur).map fun r => (.tag r.1 r.2.1, r.2.2)
  else if c = '|' && !l.inFlow then l.blockScalar false
  else if c = '>' && !l.inFlow then l.blockScalar true
  else if c = '\'' then l.quoted false
  else if c = '"' then l.quoted true
  else if startsPlain l.inFlow c next then l.plain
  else .error .malformed

/-- The state at the next token: what lapsed or ended before it is dropped. -/
def approach (l : Lexer) : Except Fault Lexer := do
  let (cur, allowed) := skip (l.cursor.rest.length + 1) l.inFlow l.keyAllowed l.cursor
  let l ← { l with cursor := cur, keyAllowed := allowed }.dropStale
  return l.unwind l.cursor.column

/-- The tokens from a state on, and the fault that ends them, if any. Each round takes a character.
-/
def run : Nat → Lexer → List Token × Option Fault
  | 0, l => (l.tokens.reverse, some .malformed)
  | n + 1, l =>
    match l.approach with
    | .error f => (l.tokens.reverse, some f)
    | .ok l =>
      match l.cursor.peek with
      | none =>
        match (l.unwind (-1)).dropPending with
        | .error f => (l.tokens.reverse, some f)
        | .ok l => ((l.emit .streamEnd).tokens.reverse, none)
      | some c =>
        match l.token c with
        | .error f => (l.tokens.reverse, some f)
        | .ok l => run n l

end Lexer

/-- Whether a character may stand in a text. -/
def isReadable (c : Char) : Bool :=
  let n := c.toNat
  n = 0x09 || n = 0x0a || n = 0x0d || (0x20 ≤ n && n ≤ 0x7e) || n = 0x85 ||
    (0xa0 ≤ n && n ≤ 0xfffd) || 0x10000 ≤ n

/-- The tokens of a text up to the first fault. A byte order mark at the beginning is passed over.
-/
def Token.ofText (text : String) : List Token × Option Fault :=
  let cs := text.toList
  if cs.all isReadable then
    let body := if cs.head? = some '\ufeff' then cs.drop 1 else cs
    Lexer.run (body.length + 1) (Lexer.start body)
  else ([], some .malformed)

end TypedClient.Yaml
