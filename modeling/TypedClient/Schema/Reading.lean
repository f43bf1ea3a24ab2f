import TypedClient.Schema.Basic
import TypedClient.Value.Display
import TypedClient.Assoc

/-!
# Reading a schema from a document

`Form.of` decides by a fixed precedence what a map of the document is read as: a reference, a
primitive, an array, an object, a combination, or nothing of these. `Schema.ofValue` then reads the
parts that the form has, and no other part of the map is looked at. The list of required names can
be refused, for its items have to be texts, and so can a value whose text is taken and that has
none: the key of a property, a format or a description.
-/

namespace TypedClient

/-- Why a schema is refused. -/
inductive SchemaFault where
  /-- A list or map among the required names: it cannot be a member of a set. -/
  | requiredCollection
  /-- Another value that is not a text among the required names. -/
  | requiredNotText
  /-- A value whose text is taken has none. -/
  | noText
  deriving DecidableEq, Repr

/-- What a map is read as, with the parts that are read further. -/
inductive Form where
  | reference (ref : String)
  | primitive (kind : PrimitiveKind)
  | array (items : Value)
  | object (properties : List (Value × Value)) (required : List Value) (additional : Value)
  | combinator (kind : CombinatorKind) (members : List Value)
  | unknown

namespace Form

/-- The entries of a map, none for another value. -/
def entriesOf : Value → List (Value × Value)
  | .map entries => entries
  | _ => []

/-- The items of a list, none for another value. -/
def itemsOf : Value → List Value
  | .list items => items
  | _ => []

/-- The first combination whose members are a list. -/
def combination? (entries : List (Value × Value)) : Option (CombinatorKind × List Value) :=
  CombinatorKind.all.findSome? fun kind =>
    match Value.find? entries kind.keyword with
    | some (.list members) => some (kind, members)
    | _ => none

/-- Whether a map is read as an object: its type says so, or it has properties and no type. -/
def isObject (entries : List (Value × Value)) : Bool :=
  match Value.get entries "type" with
  | .null => (Value.find? entries "properties").isSome
  | type => type.isText "object"

/-- The primitive that a type names. -/
def primitive? (type : Value) : Option PrimitiveKind :=
  PrimitiveKind.all.find? fun kind => type.isText kind.keyword

/-- What a map is read as. -/
def of (entries : List (Value × Value)) : Form :=
  match Value.get entries "$ref" with
  | .text ref => .reference ref
  | _ =>
    match primitive? (Value.get entries "type") with
    | some kind => .primitive kind
    | none =>
      if (Value.get entries "type").isText "array" then .array (Value.get entries "items")
      else if isObject entries then
        .object (entriesOf (Value.get entries "properties"))
          (itemsOf (Value.get entries "required"))
          ((Value.find? entries "additionalProperties").getD (.bool true))
      else
        match combination? entries with
        | some (kind, members) => .combinator kind members
        | none => .unknown

theorem sizeOf_value_pos (v : Value) : 0 < sizeOf v := by
  cases v <;> simp only [Value.null.sizeOf_spec, Value.bool.sizeOf_spec, Value.int.sizeOf_spec,
    Value.float.sizeOf_spec, Value.text.sizeOf_spec, Value.moment.sizeOf_spec,
    Value.list.sizeOf_spec, Value.map.sizeOf_spec] <;> omega

theorem sizeOf_null_lt (entries : List (Value × Value)) :
    sizeOf Value.null < sizeOf (Value.map entries) := by
  have : 0 < sizeOf entries := by
    cases entries with
    | nil => exact Nat.one_pos
    | cons e es => rw [List.cons.sizeOf_spec]; omega
  simp only [Value.map.sizeOf_spec, Value.null.sizeOf_spec]
  omega

theorem sizeOf_bool_lt {entries : List (Value × Value)} (h : isObject entries = true) (b : Bool) :
    sizeOf (Value.bool b) < sizeOf (Value.map entries) := by
  cases entries with
  | nil => simp [isObject, Value.get, Value.find?] at h
  | cons e es =>
    obtain ⟨k, v⟩ := e
    simp only [Value.map.sizeOf_spec, Value.bool.sizeOf_spec, List.cons.sizeOf_spec,
      Prod.mk.sizeOf_spec, Bool.sizeOf_eq_one]
    omega

theorem sizeOf_get_lt (entries : List (Value × Value)) (key : String) :
    sizeOf (Value.get entries key) < sizeOf (Value.map entries) := by
  unfold Value.get
  cases h : Value.find? entries key with
  | some v => exact Value.sizeOf_find?_lt h
  | none => exact sizeOf_null_lt entries

theorem sizeOf_entriesOf_le (v : Value) : sizeOf (entriesOf v) ≤ sizeOf v := by
  cases v with
  | map entries => simp [entriesOf]
  | _ => exact sizeOf_value_pos _

/-- The parts of a form are smaller than the map. -/
def Within (n : Nat) : Form → Prop
  | .array items => sizeOf items < n
  | .object properties _ additional => sizeOf properties < n ∧ sizeOf additional < n
  | .combinator _ members => sizeOf members < n
  | _ => True

theorem within_combinator {entries : List (Value × Value)} {kind : CombinatorKind}
    {members : List Value} (h : combination? entries = some (kind, members)) :
    sizeOf members < sizeOf (Value.map entries) := by
  obtain ⟨k, -, hk⟩ := List.exists_of_findSome?_eq_some h
  split at hk
  next ms hms =>
    have hlt := Value.sizeOf_find?_lt hms
    cases hk
    simp only [Value.list.sizeOf_spec] at hlt
    omega
  next => cases hk

theorem within_of (entries : List (Value × Value)) :
    (of entries).Within (1 + sizeOf entries) := by
  rw [← Value.map.sizeOf_spec]
  unfold of
  split
  · trivial
  · split
    · trivial
    · split
      · exact sizeOf_get_lt entries "items"
      · split
        · refine ⟨Nat.lt_of_le_of_lt (sizeOf_entriesOf_le _) (sizeOf_get_lt entries _), ?_⟩
          cases h : Value.find? entries "additionalProperties" with
          | some v => exact Value.sizeOf_find?_lt h
          | none => exact sizeOf_bool_lt (by assumption) true
        · split
          next h => exact within_combinator h
          next => trivial

end Form

namespace Schema

/-- The primitive schema that a map describes. -/
def primitiveOf (entries : List (Value × Value)) (kind : PrimitiveKind) : Primitive where
  kind := kind
  choices :=
    match Value.get entries "enum" with
    | .list choices => some choices
    | _ => none
  default := Value.get entries "default"
  format := (Value.get entries "format").optionalText
  description := (Value.get entries "description").optionalText

/-- The notes of a primitive schema: its format and its description. -/
def notesOf (entries : List (Value × Value)) : List Value :=
  [Value.get entries "format", Value.get entries "description"]

/-- The texts among the values. -/
def textsOf (items : List Value) : List String :=
  items.filterMap fun v => match v with | .text s => some s | _ => none

/-- Lists and maps among the required names are refused. -/
def checkKeys (required : List Value) : Except SchemaFault Unit :=
  if required.all Value.isKey then .ok () else .error .requiredCollection

/-- The required names without repetitions. Values that are not texts are refused. -/
def requiredNames (required : List Value) : Except SchemaFault (List String) :=
  if (textsOf required).length = required.length then .ok (textsOf required).eraseDups
  else .error .requiredNotText

mutual

/-- The schema that a value of the document describes. -/
def ofValue : Value → Except SchemaFault Schema
  | .map entries =>
    have within := Form.within_of entries
    match h : Form.of entries with
    | .reference ref => .ok (.reference ref)
    | .primitive kind => do
      Value.requireTexts .noText (notesOf entries)
      return .primitive (primitiveOf entries kind)
    | .array items =>
      have : sizeOf items < 1 + sizeOf entries := by rw [h] at within; exact within
      (ofValue items).map .array
    | .object properties required additional =>
      have : sizeOf properties < 1 + sizeOf entries := by rw [h] at within; exact within.1
      have : sizeOf additional < 1 + sizeOf entries := by rw [h] at within; exact within.2
      do
        let properties ← ofProperties properties
        checkKeys required
        let additional ← ofAdditional additional
        Value.requireTexts .noText [Value.get entries "description"]
        let required ← requiredNames required
        return .object (Assoc.ofPairs properties) required additional
          (Value.get entries "description").optionalText
    | .combinator kind members =>
      have : sizeOf members < 1 + sizeOf entries := by rw [h] at within; exact within
      (ofMembers members).map (.combinator kind)
    | .unknown => .ok (.unknown (.map entries))
  | raw => .ok (.unknown raw)
termination_by v => (sizeOf v, 0)

/-- What an object may hold beside its properties. -/
def ofAdditional : Value → Except SchemaFault (Additional Schema)
  | .bool yes => .ok (.allowed yes)
  | raw => (ofValue raw).map .schema
termination_by v => (sizeOf v, 1)

/-- The schemas of a combination. -/
def ofMembers : List Value → Except SchemaFault (List Schema)
  | [] => .ok []
  | v :: vs => do
    let s ← ofValue v
    let ss ← ofMembers vs
    return s :: ss
termination_by vs => (sizeOf vs, 0)

/-- The schemas of an object's properties under the texts of their keys. -/
def ofProperties : List (Value × Value) → Except SchemaFault (List (String × Schema))
  | [] => .ok []
  | (k, v) :: es => do
    Value.requireTexts .noText [k]
    let s ← ofValue v
    let ss ← ofProperties es
    return (k.display, s) :: ss
termination_by es => (sizeOf es, 0)

end

end Schema

end TypedClient
