import Mathlib.Logic.Relation
import TypedClient.Proofs.Failure.Schema

/-!
# The variant that a value is taken as

A value is tried for the variants of schemas in a fixed order and taken as the first one that it has
the keys for (`Variant.taken`). The variant decides which values are read with it
(`Variant.parts`), and so which ones are read at all (`Variant.Reaches`). The reader decides the
same: the form of a map is the one of its variant (`Form.of_eq_as`).
-/

namespace TypedClient

/-- The variants of schemas. -/
inductive Variant where
  | reference
  | primitive (kind : PrimitiveKind)
  | array
  | object
  | combinator (kind : CombinatorKind)
  | unknown
  deriving DecidableEq, Repr

namespace Variant

/-- The order in which a value is tried for the variants. -/
def precedence : List Variant :=
  [reference] ++ PrimitiveKind.all.map primitive ++ [array, object] ++
    CombinatorKind.all.map combinator ++ [unknown]

/-- Whether the value is a text. -/
def isTextual : Value → Bool
  | .text _ => true
  | _ => false

/-- Whether the value is `null`. -/
def isNull : Value → Bool
  | .null => true
  | _ => false

/-- Whether the value is a list. -/
def isList : Value → Bool
  | .list _ => true
  | _ => false

/-- Whether the entries have what the variant asks for. -/
def admits (entries : List (Value × Value)) : Variant → Bool
  | reference => isTextual (Value.get entries "$ref")
  | primitive kind => (Value.get entries "type").isText kind.keyword
  | array => (Value.get entries "type").isText "array"
  | object => (Value.get entries "type").isText "object" ||
      isNull (Value.get entries "type") && (Value.find? entries "properties").isSome
  | combinator kind => isList (Value.get entries kind.keyword)
  | unknown => true

/-- The first variant that the value admits. A value that is no map admits what the empty map
admits. -/
def taken (raw : Value) : Variant :=
  (precedence.find? (admits (Form.entriesOf raw))).getD unknown

/-- What stands under a key of the value. -/
def under (raw : Value) (key : String) : Value :=
  Value.get (Form.entriesOf raw) key

/-- The properties, in order. -/
def properties (raw : Value) : List (Value × Value) :=
  Form.entriesOf (under raw "properties")

/-- The values of the properties, in order. -/
def propertyParts (raw : Value) : List Value :=
  (properties raw).map (·.2)

/-- The value for additional properties, unless it is a boolean. -/
def additionalParts (raw : Value) : List Value :=
  Form.additionalParts
    ((Value.find? (Form.entriesOf raw) "additionalProperties").getD (.bool true))

/-- The values that are read as schemas because the value is. -/
def parts (raw : Value) : List Value :=
  match taken raw with
  | array => [under raw "items"]
  | object => propertyParts raw ++ additionalParts raw
  | combinator kind => Form.itemsOf (under raw kind.keyword)
  | _ => []

/-- The format and the description of a primitive schema, and the description of an object. -/
def notes (raw : Value) : List Value :=
  match taken raw with
  | primitive _ => [under raw "format", under raw "description"]
  | object => [under raw "description"]
  | _ => []

/-- The keys of the properties of an object. -/
def keys (raw : Value) : List Value :=
  match taken raw with
  | object => (properties raw).map (·.1)
  | _ => []

/-- Reading the first value as a schema reads the second one as a schema too. -/
def Reaches : Value → Value → Prop :=
  Relation.ReflTransGen fun raw part => part ∈ parts raw

end Variant

/-! ## The variant of a form -/

namespace Form

/-- The form that the entries have as a schema of the variant. -/
def as (entries : List (Value × Value)) : Variant → Form
  | .reference => .reference (match Value.get entries "$ref" with | .text ref => ref | _ => "")
  | .primitive kind => .primitive kind
  | .array => .array (Value.get entries "items")
  | .object => .object (entriesOf (Value.get entries "properties"))
      (itemsOf (Value.get entries "required"))
      ((Value.find? entries "additionalProperties").getD (.bool true))
  | .combinator kind => .combinator kind (itemsOf (Value.get entries kind.keyword))
  | .unknown => .unknown

/-- The first primitive of a type is the first variant of a primitive. -/
theorem find?_primitive (entries : List (Value × Value)) :
    (PrimitiveKind.all.map Variant.primitive).find? (Variant.admits entries) =
      (primitive? (Value.get entries "type")).map .primitive :=
  List.find?_map

/-- The first combination with members is the first variant of a combination. -/
theorem find?_combinator (entries : List (Value × Value)) :
    (CombinatorKind.all.map Variant.combinator).find? (Variant.admits entries) =
      (combination? entries).map fun c => .combinator c.1 := by
  rw [List.find?_map, List.find?_eq_findSome?_guard, List.map_findSome?, combination?,
    List.map_findSome?]
  refine congrArg (List.findSome? · CombinatorKind.all) (funext fun kind => ?_)
  have hadmits : Variant.admits entries (.combinator kind) =
      Variant.isList ((Value.find? entries kind.keyword).getD .null) := rfl
  simp only [Function.comp_apply, Option.guard_def, hadmits]
  rcases Value.find? entries kind.keyword with _ | v
  · rfl
  · cases v <;> rfl

theorem admits_object (entries : List (Value × Value)) :
    Variant.object.admits entries = isObject entries := by
  unfold Variant.admits isObject
  cases Value.get entries "type" <;> simp [Variant.isNull, Value.isText]

/-- The first variant, put together from the first of each kind. -/
theorem taken_map (entries : List (Value × Value)) :
    Variant.taken (.map entries) =
      if Variant.isTextual (Value.get entries "$ref") then .reference
      else match primitive? (Value.get entries "type") with
        | some kind => .primitive kind
        | none =>
          if (Value.get entries "type").isText "array" then .array
          else if isObject entries then .object
          else match combination? entries with
            | some (kind, _) => .combinator kind
            | none => .unknown := by
  unfold Variant.taken Variant.precedence
  simp only [List.find?_append, find?_primitive, find?_combinator, entriesOf, List.find?_cons,
    List.find?_nil, admits_object]
  simp only [Variant.admits]
  cases Variant.isTextual (Value.get entries "$ref") <;>
    cases primitive? (Value.get entries "type") <;>
    cases (Value.get entries "type").isText "array" <;>
    cases isObject entries <;>
    cases combination? entries <;> rfl

/-- The members of the first combination stand under its key. -/
theorem get_of_combination? {entries : List (Value × Value)} {kind : CombinatorKind}
    {members : List Value} (h : combination? entries = some (kind, members)) :
    Value.get entries kind.keyword = .list members := by
  obtain ⟨k, -, hk⟩ := List.exists_of_findSome?_eq_some h
  split at hk
  · rename_i ms hms
    cases hk
    rw [Value.get, hms, Option.getD_some]
  · cases hk

/-- A map has the form of the variant that it is taken as. -/
theorem of_eq_as (entries : List (Value × Value)) :
    of entries = as entries (Variant.taken (.map entries)) := by
  rw [taken_map]
  unfold of
  split
  · rename_i ref href
    simp only [href, Variant.isTextual, if_true, as]
  · rename_i href
    have hnone : Variant.isTextual (Value.get entries "$ref") = false := by
      cases h : Value.get entries "$ref" with
      | text ref => exact absurd h (href ref)
      | _ => rfl
    rw [if_neg (Bool.eq_false_iff.1 hnone)]
    cases primitive? (Value.get entries "type") with
    | some kind => rfl
    | none =>
      simp only
      split
      · rfl
      · split
        · rfl
        · cases h : combination? entries with
          | none => rfl
          | some c => simp only [as, get_of_combination? h, itemsOf]

end Form

/-! ## Reading a form -/

namespace Schema

/-- The schema of entries that have the form. -/
def ofForm (entries : List (Value × Value)) : Form → Except SchemaFault Schema
  | .reference ref => .ok (.reference ref)
  | .primitive kind => do
    Value.requireTexts .noText (notesOf entries)
    return .primitive (primitiveOf entries kind)
  | .array items => (ofValue items).map .array
  | .object properties required additional => do
    let properties ← ofProperties properties
    checkKeys required
    let additional ← ofAdditional additional
    Value.requireTexts .noText [Value.get entries "description"]
    let required ← requiredNames required
    return .object (Assoc.ofPairs properties) required additional
      (Value.get entries "description").optionalText
  | .combinator kind members => (ofMembers members).map (.combinator kind)
  | .unknown => .ok (.unknown (.map entries))

theorem ofValue_map (entries : List (Value × Value)) :
    ofValue (.map entries) = ofForm entries (Form.of entries) := by
  rw [ofValue]
  split <;> simp only [*, ofForm]

theorem ofValue_reference (ref : String) :
    ofValue (.map [(.text "$ref", .text ref)]) = .ok (.reference ref) := by
  rw [ofValue_map]
  rfl

theorem ofValue_array (items : Value) :
    ofValue (.map [(.text "type", .text "array"), (.text "items", items)]) =
      (ofValue items).map .array := by
  rw [ofValue_map]
  rfl

theorem ofValue_primitive (kind : PrimitiveKind) :
    ofValue (.map [(.text "type", .text kind.keyword)]) =
      .ok (.primitive ⟨kind, none, .null, none, none⟩) := by
  cases kind <;>
    · rw [ofValue_map]
      rfl

/-- A value that is no map is read as it is. -/
theorem ofValue_of_not_map {raw : Value} (h : ∀ entries, raw ≠ .map entries) :
    ofValue raw = .ok (.unknown raw) := by
  cases raw with
  | map entries => exact absurd rfl (h entries)
  | _ => rw [ofValue]; simp

end Schema

namespace Variant

variable {entries : List (Value × Value)} {raw part : Value}

theorem parts_map (entries : List (Value × Value)) :
    parts (.map entries) = (Form.of entries).parts := by
  rw [Form.of_eq_as, parts]
  cases taken (.map entries) <;> rfl

theorem taken_of_entriesOf_eq_nil (h : Form.entriesOf raw = []) : taken raw = unknown := by
  rw [taken, h]
  rfl

/-- Only a map is taken as a variant that asks for something. -/
theorem exists_map_of_taken_ne (h : taken raw ≠ unknown) : ∃ entries, raw = .map entries := by
  cases raw with
  | map entries => exact ⟨entries, rfl⟩
  | _ => exact absurd (taken_of_entriesOf_eq_nil rfl) h

theorem asked_eq (raw : Value) : Schema.asked raw = keys raw ++ notes raw := by
  by_cases hmap : ∃ entries, raw = .map entries
  · obtain ⟨entries, rfl⟩ := hmap
    rw [Schema.asked, Form.of_eq_as, keys, notes]
    cases taken (.map entries) <;> rfl
  · have hunknown : taken raw = unknown := by
      by_contra hne
      exact hmap (exists_map_of_taken_ne hne)
    rw [keys, notes, hunknown]
    cases raw with
    | map entries => exact absurd ⟨entries, rfl⟩ hmap
    | _ => rfl

theorem exists_map_of_mem_parts (h : part ∈ parts raw) : ∃ entries, raw = .map entries := by
  refine exists_map_of_taken_ne fun hunknown => ?_
  rw [parts, hunknown] at h
  cases h

theorem sizeOf_lt_of_mem_parts (h : part ∈ parts raw) : sizeOf part < sizeOf raw := by
  obtain ⟨entries, rfl⟩ := exists_map_of_mem_parts h
  rw [parts_map] at h
  exact Form.sizeOf_lt_of_mem_parts h

theorem reaches_iff_visits {v : Value} : Reaches raw v ↔ Schema.Visits raw v := by
  constructor
  · intro h
    induction h using Relation.ReflTransGen.head_induction_on with
    | refl => exact .self v
    | head hpart _ ih =>
      obtain ⟨entries, rfl⟩ := exists_map_of_mem_parts hpart
      exact .part (parts_map entries ▸ hpart) ih
  · intro h
    induction h with
    | self => exact .refl
    | part hpart _ ih => exact .head (by rwa [parts_map]) ih

end Variant

end TypedClient
