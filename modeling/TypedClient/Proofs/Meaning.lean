import Mathlib.Data.List.Nodup
import TypedClient.Proofs.Cycles
import TypedClient.Client.File

/-!
# A type means what its schema means

Types and schemas are read along access paths. Some nodes stand for another one: a declared name for
its declaration, a reference for the schema under its name, a combinator of one member for this
member. Every other node has a head and parts. A graph says which is which, and `Shows` is what is
found at the end of a path.

A type is finite although its schema may be cyclic, because references are cut. The two show the
same nevertheless: wherever a type stands for another one, the schema does so too
(`standsFor_of_alias`), and between two such moments the schema runs ahead of its type for a bounded
time only (`exists_settled`).
-/

namespace TypedClient

open TypeExpr

/-- A step into a type or a schema. -/
inductive Access where
  | property (name : String)
  | element
  | member (position : Nat)

/-- What a type or a schema is at its surface. -/
inductive Head where
  | unknown
  | string
  | number
  | boolean
  | literals (choices : List (Option String))
  | undeclared (name : String)
  | array
  | openRecord
  | object (keys : List PropertyKey)
  | combination (how : Combination) (members : Nat)

/-- Nodes that stand for another node, or else have a head and parts. -/
structure Graph (α : Type) where
  next? : α → Option α
  head : α → Head
  part? : α → Access → Option α

namespace Graph

variable {α : Type} (g : Graph α)

/-- The head at the end of a path. -/
inductive Shows : α → List Access → Head → Prop
  | head {a : α} : g.next? a = none → Shows a [] (g.head a)
  | next {a b : α} {path : List Access} {h : Head} :
    g.next? a = some b → Shows b path h → Shows a path h
  | part {a b : α} {step : Access} {path : List Access} {h : Head} :
    g.next? a = none → g.part? a step = some b → Shows b path h → Shows a (step :: path) h

variable {g}

theorem Shows.unique {a : α} {path : List Access} {h h' : Head} (hs : g.Shows a path h)
    (hs' : g.Shows a path h') : h = h' := by
  induction hs with
  | head hn =>
    cases hs' with
    | head => rfl
    | next hn' => simp [hn] at hn'
  | next hn _ ih =>
    cases hs' with
    | next hn' hb => exact ih (by rw [hn, Option.some.injEq] at hn'; exact hn' ▸ hb)
    | head hn' => simp [hn] at hn'
    | part hn' => simp [hn] at hn'
  | part hn hp _ ih =>
    cases hs' with
    | next hn' => simp [hn] at hn'
    | part _ hp' hb => exact ih (by rw [hp, Option.some.injEq] at hp'; exact hp' ▸ hb)

end Graph

namespace TypeExpr

/-- The type that a declared name is declared as. -/
def alias? (reg : Registry) (name : String) : Option TypeExpr :=
  (reg.lookup? name).map (ofSchema reg [name])

/-- Types, with declared names standing for their declarations. -/
def graph (reg : Registry) : Graph TypeExpr where
  next?
    | .named name => alias? reg name
    | _ => none
  head
    | .unknown => .unknown
    | .string => .string
    | .number => .number
    | .boolean => .boolean
    | .literals choices => .literals choices
    | .named name => .undeclared name
    | .array _ => .array
    | .openRecord => .openRecord
    | .object properties => .object (properties.map (·.1))
    | .combination how members => .combination how members.length
  part?
    | .array element, .element => some element
    | .object properties, .property name =>
      (properties.find? (·.1.name = name)).map (·.2)
    | .combination _ members, .member i => members[i]?
    | _, _ => none

end TypeExpr

namespace Schema

def primitiveHead (p : Primitive) : Head :=
  match p.kind, p.choices with
  | .string, some (v :: vs) => .literals ((v :: vs).map Value.optionalText)
  | .string, _ => .string
  | .number, _ => .number
  | .integer, _ => .number
  | .boolean, _ => .boolean

/-- Schemas, with references standing for the schemas under their names and a combinator of one
member for this member. -/
def graph (reg : Registry) : Graph Schema where
  next?
    | .reference ref => reg.lookup? (Reference.name ref)
    | .combinator _ [member] => some member
    | _ => none
  head
    | .primitive p => primitiveHead p
    | .array _ => .array
    | .object [] _ _ _ => .openRecord
    | .object properties required _ _ =>
      .object (properties.map fun p => ⟨p.1, !required.contains p.1⟩)
    | .reference ref => .undeclared (Reference.name ref)
    | .combinator _ [] => .unknown
    | .combinator .allOf members => .combination .intersection members.length
    | .combinator _ members => .combination .union members.length
    | .unknown _ => .unknown
  part?
    | .array element, .element => some element
    | .object properties _ _ _, .property name => (properties.find? (·.1 = name)).map (·.2)
    | .combinator _ members, .member i => members[i]?
    | _, _ => none

end Schema

section Agreement

variable (reg : Registry)

/-- The type has the head of the schema, and its parts are the types of the schema's parts. -/
structure Mirrors (visited : List String) (t : TypeExpr) (s : Schema) : Prop where
  settled : (TypeExpr.graph reg).next? t = none
  head_eq : (TypeExpr.graph reg).head t = (Schema.graph reg).head s
  part_eq : ∀ step, (TypeExpr.graph reg).part? t step =
    ((Schema.graph reg).part? s step).map (ofSchema reg visited)

theorem mirrors_primitive (visited : List String) (p : Primitive) :
    Mirrors reg visited (ofSchema reg visited (.primitive p)) (.primitive p) := by
  rw [ofSchema]
  rcases p with ⟨_ | _ | _ | _, _ | _ | _, _, _, _⟩ <;> exact ⟨rfl, rfl, fun _ => rfl⟩

theorem mirrors_object (visited : List String) (properties : List (String × Schema))
    (required : List String) (additional : Additional Schema) (description : Option String) :
    Mirrors reg visited (ofSchema reg visited (.object properties required additional description))
      (.object properties required additional description) := by
  rw [ofSchema, ofProperties_eq_map]
  rcases properties with _ | ⟨p, ps⟩
  · exact ⟨rfl, rfl, fun step => by cases step <;> rfl⟩
  · refine ⟨rfl, ?_, fun step => ?_⟩
    · simp [TypeExpr.graph, Schema.graph, keyOf]
    · cases step with
      | property name =>
        simp only [TypeExpr.graph, Schema.graph, List.isEmpty_cons, Bool.false_eq_true, ↓reduceIte,
          List.find?_map, Option.map_map]
        rfl
      | _ => rfl

theorem mirrors_undeclared (visited : List String) {ref : String}
    (h : reg.lookup? (Reference.name ref) = none) :
    Mirrors reg visited (ofSchema reg visited (.reference ref)) (.reference ref) := by
  rw [Place.target?_of_type_reference (Place.target?_eq_none.2 (.inr h))]
  exact ⟨by simp [TypeExpr.graph, alias?, h], rfl, fun _ => rfl⟩

theorem mirrors_combinator (visited : List String) {kind : CombinatorKind} {members : List Schema}
    (h : (Schema.graph reg).next? (.combinator kind members) = none) :
    Mirrors reg visited (ofSchema reg visited (.combinator kind members))
      (.combinator kind members) := by
  rw [ofSchema, ofMembers_eq_map]
  rcases members with _ | ⟨a, _ | ⟨b, rest⟩⟩
  · exact ⟨rfl, rfl, fun step => by cases step <;> rfl⟩
  · cases h
  · refine ⟨rfl, ?_, fun step => ?_⟩
    · cases kind <;> simp [TypeExpr.graph, Schema.graph, combine, combinationOf]
    · cases step with
      | member i =>
        show ((a :: b :: rest).map (ofSchema reg visited))[i]? = _
        rw [List.getElem?_map]
        rfl
      | _ => rfl

/-- A schema that stands for no other one is mirrored by its type. -/
theorem mirrors_ofSchema (visited : List String) {s : Schema}
    (h : (Schema.graph reg).next? s = none) : Mirrors reg visited (ofSchema reg visited s) s := by
  cases s with
  | primitive p => exact mirrors_primitive reg visited p
  | array element => rw [ofSchema]; exact ⟨rfl, rfl, fun step => by cases step <;> rfl⟩
  | object properties required additional description =>
    exact mirrors_object reg visited properties required additional description
  | reference ref => exact mirrors_undeclared reg visited h
  | combinator kind members => exact mirrors_combinator reg visited h
  | unknown raw => rw [ofSchema]; exact ⟨rfl, rfl, fun _ => rfl⟩

variable {reg}

/-- What a declared name stands for is the type of what its reference stands for. -/
theorem standsFor_of_alias {visited : List String} {ref : String} {t : TypeExpr}
    (hv : Reference.name ref ∈ visited)
    (h : (TypeExpr.graph reg).next? (ofSchema reg visited (.reference ref)) = some t) :
    ∃ s, (Schema.graph reg).next? (.reference ref) = some s ∧
      t = ofSchema reg [Reference.name ref] s := by
  rw [Place.target?_of_type_reference (Place.target?_eq_none.2 (.inl hv))] at h
  obtain ⟨s, hs, rfl⟩ := Option.map_eq_some_iff.1 h
  exact ⟨s, hs, rfl⟩

/-- A schema comes to a schema of the same type that is mirrored by it or is a visited reference,
after standing for other ones a number of times. -/
theorem exists_settled (visited : List String) : ∀ s : Schema, ∃ visited' s',
    ofSchema reg visited s = ofSchema reg visited' s' ∧
      (∀ path h, (Schema.graph reg).Shows s' path h → (Schema.graph reg).Shows s path h) ∧
      ((Schema.graph reg).next? s' = none ∨
        ∃ ref, s' = .reference ref ∧ Reference.name ref ∈ visited')
  | .combinator kind [member] => by
    obtain ⟨visited', s', htype, hshows, hs'⟩ := exists_settled visited member
    refine ⟨visited', s', ?_, fun path h hs => .next rfl (hshows path h hs), hs'⟩
    rw [ofSchema, ofMembers_eq_map]
    exact htype
  | .reference ref => by
    by_cases hv : Reference.name ref ∈ visited
    · exact ⟨visited, _, rfl, fun _ _ hs => hs, .inr ⟨ref, rfl, hv⟩⟩
    · rcases hfound : reg.lookup? (Reference.name ref) with _ | target
      · exact ⟨visited, _, rfl, fun _ _ hs => hs, .inl hfound⟩
      · have := Registry.length_unvisited_cons_lt (Registry.mem_names_of_lookup? hfound) hv
        obtain ⟨visited', s', htype, hshows, hs'⟩ :=
          exists_settled (Reference.name ref :: visited) target
        refine ⟨visited', s', ?_, fun path h hs => .next hfound (hshows path h hs), hs'⟩
        rw [ofSchema_reference, Place.target?_eq_some.2 ⟨hv, hfound⟩]
        exact htype
  | .primitive p => ⟨visited, _, rfl, fun _ _ hs => hs, .inl rfl⟩
  | .array element => ⟨visited, _, rfl, fun _ _ hs => hs, .inl rfl⟩
  | .object properties required additional description =>
    ⟨visited, _, rfl, fun _ _ hs => hs, .inl rfl⟩
  | .combinator kind [] => ⟨visited, _, rfl, fun _ _ hs => hs, .inl rfl⟩
  | .combinator kind (a :: b :: rest) => ⟨visited, _, rfl, fun _ _ hs => hs, .inl rfl⟩
  | .unknown raw => ⟨visited, _, rfl, fun _ _ hs => hs, .inl rfl⟩
termination_by s => ((reg.unvisited visited).length, sizeOf s)

theorem shows_schema_of_shows_type {t : TypeExpr} {path : List Access} {h : Head}
    (ht : (TypeExpr.graph reg).Shows t path h) :
    ∀ {visited s}, t = ofSchema reg visited s → (Schema.graph reg).Shows s path h := by
  induction ht with
  | @head t hn =>
    -- the schema runs ahead until its type mirrors it or its reference is cut
    rintro visited s rfl
    obtain ⟨visited', s', htype, hshows, hs' | ⟨ref, rfl, hv⟩⟩ := exists_settled visited s
    · rw [htype, (mirrors_ofSchema reg visited' hs').head_eq]
      exact hshows _ _ (.head hs')
    · rw [htype] at hn ⊢
      rw [Place.target?_of_type_reference (Place.target?_eq_none.2 (.inl hv))] at hn ⊢
      refine hshows _ _ ?_
      exact .head (g := Schema.graph reg) (a := .reference ref) (Option.map_eq_none_iff.1 hn)
  | @next t t' path h hn _ ih =>
    rintro visited s rfl
    obtain ⟨visited', s', htype, hshows, hs' | ⟨ref, rfl, hv⟩⟩ := exists_settled visited s
    · rw [htype, (mirrors_ofSchema reg visited' hs').settled] at hn
      cases hn
    · rw [htype] at hn
      obtain ⟨target, hnext, ht'⟩ := standsFor_of_alias hv hn
      exact hshows _ _ (.next hnext (ih ht'))
  | @part t t' step path h hn hp _ ih =>
    rintro visited s rfl
    obtain ⟨visited', s', htype, hshows, hs' | ⟨ref, rfl, hv⟩⟩ := exists_settled visited s
    · rw [htype, (mirrors_ofSchema reg visited' hs').part_eq] at hp
      obtain ⟨part, hpart, ht'⟩ := Option.map_eq_some_iff.1 hp
      exact hshows _ _ (.part hs' hpart (ih ht'.symm))
    · rw [htype, Place.target?_of_type_reference (Place.target?_eq_none.2 (.inl hv))] at hp
      cases hp

theorem shows_type_of_shows_schema {s : Schema} {path : List Access} {h : Head}
    (hs : (Schema.graph reg).Shows s path h) :
    ∀ visited, (TypeExpr.graph reg).Shows (ofSchema reg visited s) path h := by
  induction hs with
  | head hn =>
    intro visited
    have hm := mirrors_ofSchema reg visited hn
    rw [← hm.head_eq]
    exact .head hm.settled
  | @next s s' path h hn _ ih =>
    intro visited
    cases s with
    | reference ref =>
      rw [ofSchema_reference]
      by_cases hv : Reference.name ref ∈ visited
      · rw [Place.target?_eq_none.2 (.inl hv)]
        exact .next (Option.map_eq_some_iff.2 ⟨s', hn, rfl⟩) (ih _)
      · rw [Place.target?_eq_some.2 ⟨hv, hn⟩]
        exact ih _
    | combinator kind members =>
      rcases members with _ | ⟨a, _ | ⟨b, rest⟩⟩
      · cases hn
      · cases hn
        rw [ofSchema, ofMembers_eq_map]
        exact ih visited
      · cases hn
    | _ => cases hn
  | part hn hp _ ih =>
    intro visited
    have hm := mirrors_ofSchema reg visited hn
    exact .part hm.settled (by rw [hm.part_eq, hp]; rfl) (ih visited)

theorem Registry.lookup?_of_mem {e : String × Schema} (h : e ∈ reg.entries) :
    reg.lookup? e.1 = some e.2 := by
  obtain ⟨s, hs⟩ := Option.isSome_iff_exists.1
    (Assoc.find?_isSome_iff.2 (List.mem_map_of_mem h))
  have hmem := Assoc.mem_of_find? hs
  rw [List.inj_on_of_nodup_map reg.distinct h hmem rfl]
  exact hs

/-- The file declares every name as the type that the name stands for. -/
theorem declaration_eq_alias {e : String × Schema} (h : e ∈ reg.entries) :
    ∃ t, alias? reg e.1 = some t ∧
      Interface.declaration reg e.1 e.2 = "export type " ++ e.1 ++ " = " ++ t.render 0 ++ ";\n\n" :=
  ⟨_, by rw [alias?, Registry.lookup?_of_mem h]; rfl, rfl⟩

/-- At the end of every path the type of a schema, with declared names replaced by what they are
declared as, shows the head that the schema shows with references replaced by the schemas under
their names, and neither shows a head that the other does not. -/
theorem shows_ofSchema_iff (reg : Registry) (visited : List String) (s : Schema)
    (path : List Access) :
    (∀ h, (TypeExpr.graph reg).Shows (ofSchema reg visited s) path h ↔
      (Schema.graph reg).Shows s path h) ∧
    (∀ h h', (Schema.graph reg).Shows s path h → (Schema.graph reg).Shows s path h' → h = h') ∧
    ∀ e ∈ reg.entries, ∃ t, alias? reg e.1 = some t ∧
      Interface.declaration reg e.1 e.2 = "export type " ++ e.1 ++ " = " ++ t.render 0 ++ ";\n\n" :=
  ⟨fun _ => ⟨fun h => shows_schema_of_shows_type h rfl,
      fun h => shows_type_of_shows_schema h visited⟩,
    fun _ _ h h' => h.unique h', fun _ => declaration_eq_alias⟩

end Agreement

/-- Past the place where the type is cut, it shows what the schema shows. -/
theorem shows_ofSchema_iff_mutualPair :
    (TypeExpr.graph Place.mutualPair).Shows
      (ofSchema Place.mutualPair [] (.reference "#/components/schemas/A"))
      [.property "next", .element, .property "next"] .array := by
  have second : (Schema.graph Place.mutualPair).Shows (.reference "#/components/schemas/B") []
      .array := .next rfl (.head rfl)
  have first : (Schema.graph Place.mutualPair).Shows (.reference "common.yaml#/definitions/A")
      [.property "next"] .array := .next rfl (.part rfl rfl second)
  have path : (Schema.graph Place.mutualPair).Shows (.reference "#/components/schemas/A")
      [.property "next", .element, .property "next"] .array :=
    .next rfl (.part rfl rfl (.next rfl (.part rfl rfl first)))
  exact ((shows_ofSchema_iff Place.mutualPair [] _ _).1 _).2 path

end TypedClient
