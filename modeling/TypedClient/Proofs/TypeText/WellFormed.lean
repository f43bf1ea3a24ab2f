import TypedClient.Proofs.Cycles

/-!
# Types that come from schemas

A type that comes from a schema combines at least two members and lists at least one literal, and
its names and keys are those of the references and properties of the schemas it is made of
(`Place.wellFormed_type`). `Schema.Part` is the relation of a schema to what its type mentions; the
schema of additional properties is no such part.
-/

namespace TypedClient

namespace TypeExpr

/-- Types as they come from schemas, with names and keys of given kinds. -/
inductive WellFormed (name key : String → Prop) : TypeExpr → Prop
  | unknown : WellFormed name key .unknown
  | string : WellFormed name key .string
  | number : WellFormed name key .number
  | boolean : WellFormed name key .boolean
  | openRecord : WellFormed name key .openRecord
  | literals {choices : List (Option String)} : choices ≠ [] →
    WellFormed name key (.literals choices)
  | named {n : String} : name n → WellFormed name key (.named n)
  | array {element : TypeExpr} : WellFormed name key element → WellFormed name key (.array element)
  | object {properties : List (PropertyKey × TypeExpr)} : (∀ p ∈ properties, key p.1.name) →
    (∀ p ∈ properties, WellFormed name key p.2) → WellFormed name key (.object properties)
  | combination {how : Combination} {members : List TypeExpr} : 2 ≤ members.length →
    (∀ m ∈ members, WellFormed name key m) → WellFormed name key (.combination how members)

end TypeExpr

open TypeExpr

/-- A schema and the schemas inside it that its type is made of, references not followed. -/
inductive Schema.Part : Schema → Schema → Prop
  | self (s : Schema) : Part s s
  | child {s t u : Schema} : s.Child t → Part t u → Part s u

/-- The references in a schema have names of one kind and the properties names of another. -/
structure Schema.Names (name key : String → Prop) (s : Schema) : Prop where
  reference : ∀ ref, s.Part (.reference ref) → name (Reference.name ref)
  property : ∀ properties required additional description,
    s.Part (.object properties required additional description) → ∀ p ∈ properties, key p.1

namespace Schema.Names

variable {name key : String → Prop}

theorem child {s t : Schema} (hs : s.Names name key) (h : s.Child t) : t.Names name key where
  reference ref hp := hs.reference ref (.child h hp)
  property properties required additional description hp :=
    hs.property properties required additional description (.child h hp)

theorem of_reference {ref : String} (h : name (Reference.name ref)) :
    (Schema.reference ref).Names name key where
  reference _ hp := by
    cases hp with
    | self => exact h
    | child hc => cases hc
  property _ _ _ _ hp := by
    cases hp with
    | child hc => cases hc

/-- A schema that is no reference has such names if its own properties and its children do. -/
theorem of_child {s : Schema} (href : ∀ ref, s ≠ .reference ref)
    (hkey : ∀ properties required additional description,
      s = .object properties required additional description → ∀ p ∈ properties, key p.1)
    (h : ∀ t, s.Child t → t.Names name key) : s.Names name key where
  reference ref hp := by
    cases hp with
    | self => exact absurd rfl (href ref)
    | child hc hp => exact (h _ hc).reference ref hp
  property _ _ _ _ hp := by
    cases hp with
    | self => exact hkey _ _ _ _ rfl
    | child hc hp => exact (h _ hc).property _ _ _ _ hp

end Schema.Names

variable {name key : String → Prop} {reg : Registry}

def Registry.Names (name key : String → Prop) (reg : Registry) : Prop :=
  ∀ e ∈ reg.entries, e.2.Names name key

theorem Place.names_of_mem_calls (hreg : reg.Names name key) {p q : Place} (h : q ∈ p.calls reg)
    (hp : p.schema.Names name key) : q.schema.Names name key := by
  obtain ⟨hchild, -⟩ | ⟨ref, -, -, hfound, -⟩ := mem_calls_cases h
  · exact hp.child hchild
  · exact hreg _ (Assoc.mem_of_find? hfound)

theorem wellFormed_ofPrimitive (p : Primitive) : WellFormed name key (ofPrimitive p) := by
  unfold ofPrimitive
  split
  · split
    · exact .literals (by simp)
    · exact .string
  · exact .number
  · exact .number
  · exact .boolean

theorem wellFormed_combine (how : Combination) {members : List TypeExpr}
    (h : ∀ m ∈ members, WellFormed name key m) : WellFormed name key (combine how members) := by
  rcases members with _ | ⟨a, _ | ⟨b, rest⟩⟩
  · exact .unknown
  · exact h a (by simp)
  · exact .combination (by simp) h

/-- The type of a schema is well-formed, with the names of references and keys of properties. -/
theorem Place.wellFormed_type (hreg : reg.Names name key) (p : Place)
    (hp : p.schema.Names name key) : WellFormed name key (p.type reg) := by
  induction p using (wellFounded_calls reg).induction with
  | _ p ih =>
    have hcalls : ∀ t ∈ (p.calls reg).map (Place.type reg), WellFormed name key t := by
      intro t ht
      obtain ⟨q, hq, rfl⟩ := List.mem_map.1 ht
      exact ih q hq (names_of_mem_calls hreg hq hp)
    rw [type_eq_assemble]
    generalize hts : (p.calls reg).map (Place.type reg) = types at hcalls
    have hlen : types.length = (p.calls reg).length := by rw [← hts, List.length_map]
    obtain ⟨visited, s⟩ := p
    unfold calls at hlen
    unfold assemble
    cases s with
    | primitive q => exact wellFormed_ofPrimitive q
    | array element =>
      obtain ⟨t, rfl⟩ := List.length_eq_one_iff.1 hlen
      exact .array (hcalls t (by simp))
    | object properties required additional description =>
      simp only
      split
      · exact .openRecord
      · refine .object (fun q hq => ?_) fun q hq => hcalls _ (List.of_mem_zip hq).2
        obtain ⟨a, ha, hk⟩ := List.mem_map.1 (List.of_mem_zip hq).1
        rw [← hk]
        exact hp.property _ _ _ _ (.self _) a ha
    | reference ref =>
      rcases types with _ | ⟨t, ts⟩
      · exact .named (hp.reference ref (.self _))
      · exact hcalls t (by simp)
    | combinator kind members => exact wellFormed_combine _ hcalls
    | unknown raw => exact .unknown

end TypedClient
