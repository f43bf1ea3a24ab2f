import TypedClient.Yaml.Merge
import Std.Data.HashSet

/-!
# The first fault of a document

Nodes are read in rounds. Reading a scalar gives its value or a fault; a collection is only noted,
and opened in the next round, when its parts are read from left to right. So the faults near the
root come before those deeper down. A node is read once, however many aliases stand for it.

The key of a default value counts as a text from the moment its mapping is opened, or taken over by
one that is opened. Before that the mapping can stand for its default value where a scalar is asked
for, and the key alone stands for nothing.
-/

namespace TypedClient.Yaml

namespace Node

mutual

/-- The text of a scalar, or of the default value of a mapping. Some keys of default values count as
texts. -/
def textOf? (isText : Nat → Bool) : Node → Option String
  | .scalar _ _ text => some text
  | .mapping _ _ entries => defaultOf? isText entries
  | .sequence _ _ _ => none

/-- The text of the first default value among entries. -/
def defaultOf? (isText : Nat → Bool) : List (Node × Node) → Option String
  | [] => none
  | (k, v) :: rest =>
    if k.tag = .default && !isText k.number then textOf? isText v else defaultOf? isText rest

end

/-- The value of a node by the tag of a scalar. -/
def read (isText : Nat → Bool) (tag : Tag) (n : Node) : Except Fault Value :=
  match tag, n.textOf? isText with
  | .unsupported, _ => .error .unsupported
  | _, none => .error .malformed
  | tag, some text =>
    match n, tag with
    | .mapping _ _ _, .time => .error .timeNotScalar
    | _, tag => Reading.scalar tag text

end Node

/-- The state between two nodes: the numbers of those that have been read, the numbers of the keys
that count as texts, and the collections to open, last first. -/
structure Visit where
  seen : Std.HashSet Nat
  texts : Std.HashSet Nat
  later : List Node

namespace Visit

def start : Visit := ⟨∅, ∅, []⟩

/-- The tag that a node is read by. -/
def tagOf (s : Visit) (n : Node) : Tag :=
  if n.tag = .default && s.texts.contains n.number then .text else n.tag

/-- The state after a node is read. -/
def node (s : Visit) (n : Node) : Except Fault Visit :=
  if s.seen.contains n.number then .ok s
  else
    let seen := s.seen.insert n.number
    match s.tagOf n with
    | .sequence | .mapping => .ok { s with seen, later := n :: s.later }
    | tag => (n.read s.texts.contains tag).map fun _ => { s with seen }

/-- The state after an entry is read. A collection is no key. -/
def entry (s : Visit) (e : Node × Node) : Except Fault Visit := do
  let s ← s.node e.1
  match e.1.tag with
  | .sequence | .mapping => throw .malformed
  | _ => s.node e.2

/-- The state after a collection is opened. -/
def openUp (s : Visit) : Node → Except Fault Visit
  | .sequence _ .sequence items => items.foldlM node s
  | .mapping _ .mapping entries => do
    let es ← Node.flatten entries
    es.all.foldlM entry { s with texts := s.texts.insertMany es.defaults }
  | _ => .error .malformed

/-- The first fault from a state on. The number bounds the rounds; each one goes a level deeper. -/
def firstFault? : Nat → Visit → Option Fault
  | 0, _ => none
  | n + 1, s =>
    match s.later.reverse with
    | [] => none
    | first :: rest =>
      match (first :: rest).foldlM openUp { s with later := [] } with
      | .error fault => some fault
      | .ok s => firstFault? n s

end Visit

/-- The first fault of the nodes of a document. The root has the greatest number of all, so there
are no more levels than that. -/
def Node.firstFault? (root : Node) : Option Fault :=
  match Visit.start.node root with
  | .error fault => some fault
  | .ok s => s.firstFault? (root.number + 1)

end TypedClient.Yaml
