import TypedClient.Schema.Reading
import TypedClient.Text.Split

/-!
# Named schemas

The registry holds the schemas that a document declares under names, in the order of declaration. A
reference is a path; its last part is the name. `resolve` follows one reference.
-/

namespace TypedClient

/-- Schemas under distinct names, in the order of declaration. -/
structure Registry where
  entries : List (String × Schema)
  distinct : (Assoc.names entries).Nodup

namespace Registry

/-- The registry without schemas. -/
def empty : Registry := ⟨[], List.nodup_nil⟩

/-- The registry of the given schemas. A repeated name keeps its place and its last schema. -/
def ofPairs (pairs : List (String × Schema)) : Registry :=
  ⟨Assoc.ofPairs pairs, Assoc.nodup_names_ofPairs pairs⟩

/-- The registry of the schemas that the values describe. -/
def ofValues (raws : List (String × Value)) : Except SchemaFault Registry :=
  (Schema.ofMembers (raws.map (·.2))).map fun schemas =>
    ofPairs ((raws.map (·.1)).zip schemas)

/-- The schema under a name. -/
def lookup? (reg : Registry) (name : String) : Option Schema :=
  Assoc.find? reg.entries name

/-- The declared names in order. -/
def names (reg : Registry) : List String :=
  Assoc.names reg.entries

/-- The declared names that are not among the given ones. -/
def unvisited (reg : Registry) (visited : List String) : List String :=
  reg.names.filter (· ∉ visited)

theorem mem_names_of_lookup? {reg : Registry} {name : String} {s : Schema}
    (h : reg.lookup? name = some s) : name ∈ reg.names :=
  Assoc.find?_isSome_iff.1 (by rw [show Assoc.find? reg.entries name = some s from h]; rfl)

/-- Visiting a declared name leaves fewer to visit. -/
theorem length_unvisited_cons_lt {reg : Registry} {visited : List String} {name : String}
    (hreg : name ∈ reg.names) (hnew : name ∉ visited) :
    (reg.unvisited (name :: visited)).length < (reg.unvisited visited).length := by
  have hsub : reg.unvisited (name :: visited) = (reg.unvisited visited).filter (· ≠ name) := by
    simp only [unvisited, List.filter_filter]
    exact List.filter_congr fun x _ => by simp
  rw [hsub]
  refine Nat.lt_of_le_of_ne (List.length_filter_le _ _) fun h => ?_
  have := List.length_filter_eq_length_iff.1 h name
    (List.mem_filter.2 ⟨hreg, by simpa using hnew⟩)
  simp at this

end Registry

namespace Reference

/-- The path of the schemas of the document itself. -/
def schemasPath : String := "#/components/schemas/"

/-- The name that a reference ends with. -/
def name (ref : String) : String :=
  match Text.dropStart? schemasPath.toList ref.toList with
  | some rest => String.ofList rest
  | none => String.ofList (Text.afterLast '/' ref.toList)

end Reference

namespace Registry

/-- The schema that a reference leads to, if its name is declared. Any other schema is its own. -/
def resolve (reg : Registry) : Schema → Schema
  | .reference ref => (reg.lookup? (Reference.name ref)).getD (.reference ref)
  | s => s

/-- Whether a schema, one reference followed, takes numbers. -/
def isNumeric (reg : Registry) (s : Option Schema) : Bool :=
  match s.map reg.resolve with
  | some (.primitive p) => p.kind.isNumeric
  | _ => false

/-- The first of the choices that a schema gives, one reference followed. A `null` is no choice. -/
def firstChoice? (reg : Registry) (s : Option Schema) : Option Value :=
  match s.map reg.resolve with
  | some (.primitive p) =>
    match p.choices with
    | some (.null :: _) => none
    | some (v :: _) => some v
    | _ => none
  | _ => none

end Registry

end TypedClient
