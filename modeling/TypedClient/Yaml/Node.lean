import TypedClient.Yaml.Token
import TypedClient.Yaml.Tag
import TypedClient.Assoc

/-!
# Nodes of a YAML text

The tokens of a text form a tree of scalars, sequences and mappings. An alias stands for the node
that carries its anchor; an anchor is given once. Nodes are numbered, and nodes of one number are
the same node. A node without a tag gets the tag of its kind, and a plain scalar the tag of its
form.

The readers take a bound on the depth of the recursion. Every second call takes a token, so four
times the number of tokens is enough.
-/

namespace TypedClient.Yaml

/-- A node. -/
inductive Node where
  | scalar (number : Nat) (tag : Tag) (text : String)
  | sequence (number : Nat) (tag : Tag) (items : List Node)
  | mapping (number : Nat) (tag : Tag) (entries : List (Node × Node))

namespace Node

def number : Node → Nat
  | .scalar n _ _ => n
  | .sequence n _ _ => n
  | .mapping n _ _ => n

def tag : Node → Tag
  | .scalar _ t _ => t
  | .sequence _ t _ => t
  | .mapping _ t _ => t

/-- The node of a text that is missing. Its number is that of no other node. -/
def empty : Node := .scalar 0 .null ""

/-- What is known while nodes are read: the tokens left, the fault behind the last of them, the
number of the next node, and the nodes under the anchors met so far. The node of an anchor is
unknown while it is being read, and then an alias for it is not supported. -/
structure Composer where
  tokens : List Token
  fault : Fault
  next : Nat
  handles : List (String × String)
  anchors : List (String × Option Node)

namespace Composer

/-- The next token. -/
def peek (c : Composer) : Except Fault Token :=
  match c.tokens with
  | t :: _ => .ok t
  | [] => .error c.fault

def skip (c : Composer) : Composer := { c with tokens := c.tokens.drop 1 }

end Composer

/-- Whether a token is one of the given. -/
def isOneOf (ts : List Token) (t : Token) : Bool := ts.contains t

/-- The address of a tag. -/
def tagAddress (c : Composer) : Option String → String → Except Fault String
  | none, suffix => .ok suffix
  | some handle, suffix =>
    match c.handles.lookup handle with
    | some start => .ok (start ++ suffix)
    | none => .error .malformed

/-- An anchor and the address of a tag in front of a node, in either order. -/
def properties (c : Composer) : Except Fault (Option String × Option String × Composer) := do
  match ← c.peek with
  | .anchor name =>
    let c := c.skip
    match ← c.peek with
    | .tag handle suffix => return (some name, some (← tagAddress c handle suffix), c.skip)
    | _ => return (some name, none, c)
  | .tag handle suffix =>
    let address ← tagAddress c handle suffix
    let c := c.skip
    match ← c.peek with
    | .anchor name => return (some name, some address, c.skip)
    | _ => return (none, some address, c)
  | _ => return (none, none, c)

/-- The tag of a node, given the address in front of it and the tag it has without one. -/
def tagOr (address : Option String) (implicit : Tag) : Tag :=
  match address with
  | none => implicit
  | some a => if a = "!" then implicit else Tag.ofAddress a

/-- The tag of a scalar. A lone exclamation mark makes it count as plain. -/
def scalarTag (address : Option String) (isPlain : Bool) (text : String) : Tag :=
  match address with
  | none => if isPlain then Tag.ofPlain text else .text
  | some a => if a = "!" then Tag.ofPlain text else Tag.ofAddress a

/-- The anchors with a new one. -/
def declare (c : Composer) : Option String → Except Fault Composer
  | none => .ok c
  | some name =>
    if (c.anchors.lookup name).isSome then .error .malformed
    else .ok { c with anchors := (name, none) :: c.anchors }

/-- The node with the next number, and the anchors with it. -/
def define (anchor : Option String) (n : Nat → Node) (c : Composer) : Node × Composer :=
  let n := n c.next
  let anchors :=
    match anchor with
    | none => c.anchors
    | some name => (name, some n) :: c.anchors
  (n, { c with next := c.next + 1, anchors })

/-- Where a node may stand: in a flow collection, in a block, or where the items of a sequence need
no deeper indentation. -/
inductive Place where
  | flow | block | indentless
  deriving DecidableEq

mutual

/-- A node. -/
def node : Nat → Place → Composer → Except Fault (Node × Composer)
  | 0, _, _ => .error .malformed
  | depth + 1, place, c => do
    match ← c.peek with
    | .alias name =>
      match c.anchors.lookup name with
      | some (some n) => return (n, c.skip)
      | some none => throw .unsupported
      | none => throw .malformed
    | _ =>
      let (anchor, address, c) ← properties c
      let t ← c.peek
      if place = .indentless && t = .blockEntry then
        let c ← declare c anchor
        let (items, c) ← indentlessItems depth c
        return define anchor (.sequence · (tagOr address .sequence) items) c
      else
        match t with
        | .scalar text isPlain =>
          let c ← declare c.skip anchor
          return define anchor (.scalar · (scalarTag address isPlain text) text) c
        | .flowSequenceStart =>
          let c ← declare c.skip anchor
          let (items, c) ← flowItems depth true c
          return define anchor (.sequence · (tagOr address .sequence) items) c
        | .flowMappingStart =>
          let c ← declare c.skip anchor
          let (entries, c) ← flowEntries depth true c
          return define anchor (.mapping · (tagOr address .mapping) entries) c
        | t =>
          if place != .flow && t = .blockSequenceStart then
            let c ← declare c.skip anchor
            let (items, c) ← blockItems depth c
            return define anchor (.sequence · (tagOr address .sequence) items) c
          else if place != .flow && t = .blockMappingStart then
            let c ← declare c.skip anchor
            let (entries, c) ← blockEntries depth c
            return define anchor (.mapping · (tagOr address .mapping) entries) c
          else if anchor.isSome || address.isSome then
            let c ← declare c anchor
            return define anchor (.scalar · (tagOr address .null) "") c
          else throw .malformed

/-- A node, or the empty node in front of one of the given tokens. -/
def nodeUnless : Nat → List Token → Place → Composer → Except Fault (Node × Composer)
  | 0, _, _, _ => .error .malformed
  | depth + 1, ends, place, c => do
    if isOneOf ends (← c.peek) then return (empty, c) else node depth place c

/-- The value after a colon, or the empty node. -/
def valueOf : Nat → List Token → Place → Composer → Except Fault (Node × Composer)
  | 0, _, _, _ => .error .malformed
  | depth + 1, ends, place, c => do
    if (← c.peek) = .value then nodeUnless depth ends place c.skip else return (empty, c)

/-- The items of a block sequence up to its end. -/
def blockItems : Nat → Composer → Except Fault (List Node × Composer)
  | 0, _ => .error .malformed
  | depth + 1, c => do
    match ← c.peek with
    | .blockEntry =>
      let (n, c) ← nodeUnless depth [.blockEntry, .blockEnd] .block c.skip
      let (ns, c) ← blockItems depth c
      return (n :: ns, c)
    | .blockEnd => return ([], c.skip)
    | _ => throw .malformed

/-- The items of a sequence without an indentation of its own. -/
def indentlessItems : Nat → Composer → Except Fault (List Node × Composer)
  | 0, _ => .error .malformed
  | depth + 1, c => do
    match ← c.peek with
    | .blockEntry =>
      let (n, c) ← nodeUnless depth [.blockEntry, .key, .value, .blockEnd] .block c.skip
      let (ns, c) ← indentlessItems depth c
      return (n :: ns, c)
    | _ => return ([], c)

/-- The entries of a block mapping up to its end. -/
def blockEntries : Nat → Composer → Except Fault (List (Node × Node) × Composer)
  | 0, _ => .error .malformed
  | depth + 1, c => do
    match ← c.peek with
    | .key =>
      let (k, c) ← nodeUnless depth [.key, .value, .blockEnd] .indentless c.skip
      let (v, c) ← valueOf depth [.key, .value, .blockEnd] .indentless c
      let (es, c) ← blockEntries depth c
      return ((k, v) :: es, c)
    | .blockEnd => return ([], c.skip)
    | _ => throw .malformed

/-- The items of a flow sequence up to its end. An item may be a single entry of a mapping. -/
def flowItems : Nat → Bool → Composer → Except Fault (List Node × Composer)
  | 0, _, _ => .error .malformed
  | depth + 1, first, c => do
    if (← c.peek) = .flowSequenceEnd then return ([], c.skip)
    let c ← if first then pure c
      else if (← c.peek) = .flowEntry then pure c.skip
      else throw .malformed
    match ← c.peek with
    | .flowSequenceEnd => return ([], c.skip)
    | .key =>
      let (k, c) ← nodeUnless depth [.value, .flowEntry, .flowSequenceEnd] .flow c.skip
      let (v, c) ← valueOf depth [.flowEntry, .flowSequenceEnd] .flow c
      let (n, c) := define none (.mapping · .mapping [(k, v)]) c
      let (ns, c) ← flowItems depth false c
      return (n :: ns, c)
    | _ =>
      let (n, c) ← node depth .flow c
      let (ns, c) ← flowItems depth false c
      return (n :: ns, c)

/-- The entries of a flow mapping up to its end. -/
def flowEntries : Nat → Bool → Composer → Except Fault (List (Node × Node) × Composer)
  | 0, _, _ => .error .malformed
  | depth + 1, first, c => do
    if (← c.peek) = .flowMappingEnd then return ([], c.skip)
    let c ← if first then pure c
      else if (← c.peek) = .flowEntry then pure c.skip
      else throw .malformed
    match ← c.peek with
    | .flowMappingEnd => return ([], c.skip)
    | .key =>
      let (k, c) ← nodeUnless depth [.value, .flowEntry, .flowMappingEnd] .flow c.skip
      let (v, c) ← valueOf depth [.flowEntry, .flowMappingEnd] .flow c
      let (es, c) ← flowEntries depth false c
      return ((k, v) :: es, c)
    | _ =>
      let (k, c) ← node depth .flow c
      let (es, c) ← flowEntries depth false c
      return ((k, empty) :: es, c)

end

/-! ## Documents -/

/-- The handles that are known without a directive. -/
def standardHandles : List (String × String) := [("!", "!"), ("!!", Tag.standard)]

/-- The directives in front of a document. -/
def directives : List Token → Composer → Bool → Except Fault Composer
  | .version major _ :: rest, c, versioned =>
    if versioned || major != 1 then .error .malformed else directives rest c.skip true
  | .tagHandle handle start :: rest, c, versioned =>
    if (c.handles.lookup handle).isSome then .error .malformed
    else directives rest { c.skip with handles := (handle, start) :: c.handles } versioned
  | .reservedDirective :: rest, c, versioned => directives rest c.skip versioned
  | _, c, _ => .ok { c with handles := c.handles ++ standardHandles }

/-- The tokens after the ends of documents. -/
def skipEnds (c : Composer) : Composer :=
  { c with tokens := c.tokens.dropWhile (· = .documentEnd) }

/-- The node of the only document of a text, if it has one. -/
def document (depth : Nat) (c : Composer) : Except Fault (Option Node) := do
  let explicit ←
    match ← c.peek with
    | .version _ _ => pure true
    | .tagHandle _ _ => pure true
    | .reservedDirective => pure true
    | .documentStart => pure true
    | .streamEnd => pure true
    | _ => pure false
  if explicit then
    if (← c.peek) = .streamEnd then return none
    let c ← directives c.tokens c false
    if (← c.peek) != .documentStart then throw .malformed
    let c := c.skip
    let (n, c) ←
      match ← c.peek with
      | .version _ _ => pure (empty, c)
      | .tagHandle _ _ => pure (empty, c)
      | .reservedDirective => pure (empty, c)
      | .documentStart => pure (empty, c)
      | .documentEnd => pure (empty, c)
      | .streamEnd => pure (empty, c)
      | _ => node depth .block c
    finish n (skipEnds c)
  else
    let (n, c) ← node depth .block { c with handles := standardHandles }
    finish n (skipEnds c)
where
  /-- Nothing may follow the document. -/
  finish (n : Node) (c : Composer) : Except Fault (Option Node) := do
    if (← c.peek) = .streamEnd then return some n else throw .malformed

/-- The node of a text. A text without a document has none. -/
def ofText? (text : String) : Except Fault (Option Node) :=
  let (tokens, fault) := Token.ofText text
  document (4 * (tokens.length + 1)) ⟨tokens, fault.getD .malformed, 1, [], []⟩

end Node

end TypedClient.Yaml
