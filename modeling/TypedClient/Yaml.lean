import TypedClient.Yaml.FirstFault

/-!
# YAML texts

`Yaml.read` gives the value of the only document of a text; a text without a document is `null`. If
nodes have faults, the one that is met first counts.

A repeated key keeps its place and takes the last value. Keys that are no number are the same if
they are one node, or if both are written as the word for it.
-/

namespace TypedClient.Yaml

/-- An entry of a map with what its key is told apart by if it is no number. -/
structure KeyedEntry where
  identity : Nat
  key : Value
  value : Value

namespace KeyedEntry

def isNoNumber : Value → Bool
  | .float .nan => true
  | _ => false

/-- Whether two entries have the same key. -/
def sameKey (a b : KeyedEntry) : Bool :=
  a.key.sameKey b.key || (isNoNumber a.key && isNoNumber b.key && a.identity = b.identity)

/-- The entries with one more: a known key keeps its place and takes the new value. -/
def put (es : List KeyedEntry) (e : KeyedEntry) : List KeyedEntry :=
  if es.any (·.sameKey e) then
    es.map fun old => if old.sameKey e then { old with value := e.value } else old
  else es ++ [e]

/-- The map of entries that are set one after another. -/
def toMap (es : List KeyedEntry) : Value :=
  .map ((es.foldl put []).map fun e => (e.key, e.value))

end KeyedEntry

namespace Node

/-- What a key that is no number is told apart by: the number of its node, or zero for the word. -/
def identity (n : Node) : Nat :=
  match n.textOf? fun _ => false with
  | some text => if Reading.isNoNumberWord text then 0 else n.number
  | none => n.number

/-- The value that a node denotes. The key of a default value is a text. -/
def toValue : Node → Except Fault Value
  | .sequence _ .sequence items =>
    (items.attach.mapM fun item => toValue item.1).map .list
  | .mapping _ .mapping entries =>
    match h : flatten entries with
    | .error fault => .error fault
    | .ok es => do
      let keyed ← es.all.attach.mapM fun e => do
        have := sizeOf_lt_of_flatten h e.1 e.2
        let key ← toValue e.1.1
        if !key.isKey then throw .malformed
        return KeyedEntry.mk e.1.1.identity key (← toValue e.1.2)
      return KeyedEntry.toMap keyed
  | n => n.read (fun _ => false) (if n.tag = .default then .text else n.tag)
termination_by n => sizeOf n
decreasing_by
  · have := List.sizeOf_lt_of_mem item.2
    simp only [sequence.sizeOf_spec]
    omega
  all_goals
    obtain ⟨⟨k, v⟩, _⟩ := e
    simp only [mapping.sizeOf_spec, Prod.mk.sizeOf_spec] at *
    omega

end Node

/-- The value that a text denotes. -/
def read (text : String) : Except Fault Value := do
  match ← Node.ofText? text with
  | none => return .null
  | some n =>
    match n.firstFault? with
    | some fault => throw fault
    | none => n.toValue

end TypedClient.Yaml
