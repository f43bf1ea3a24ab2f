import Mathlib.Logic.Relation
import TypedClient.Proofs.Meaning

/-!
# Circular declarations

A name that a type mentions outside object types and arrays is exposed: it has to be known before
the type is. A declaration exposes a declared name exactly if schemas that expose each other in a
cycle are reached from it (`exposes_declaration_iff`). In one direction, the walk cuts a reference
to a declared name only where the name has been expanded on the way, and between its two occurrences
lies the cycle. In the other direction, a walk that only follows names which lead to a cycle never
comes to an end by itself, so it is cut at one of them.
-/

namespace TypedClient

open TypeExpr Relation

/-- A type mentions a name outside object types and arrays. The words for the primitive types are no
names. -/
inductive TypeExpr.Exposes : TypeExpr → String → Prop
  | named {name : String} : Exposes (.named name) name
  | member {how : Combination} {members : List TypeExpr} {m : TypeExpr} {name : String} :
    m ∈ members → Exposes m name → Exposes (.combination how members) name

/-- A reference to a name is reached from a schema through references and members of combinators
only. -/
inductive Schema.Exposes (reg : Registry) : Schema → String → Prop
  | reference {ref : String} : Exposes reg (.reference ref) (Reference.name ref)
  | target {ref name : String} {s : Schema} : reg.lookup? (Reference.name ref) = some s →
    Exposes reg s name → Exposes reg (.reference ref) name
  | member {kind : CombinatorKind} {members : List Schema} {m : Schema} {name : String} :
    m ∈ members → Exposes reg m name → Exposes reg (.combinator kind members) name

namespace Registry

/-- The schema under the first name exposes the second one. -/
def Edge (reg : Registry) (name name' : String) : Prop :=
  ∃ s, reg.lookup? name = some s ∧ s.Exposes reg name'

/-- A cycle of names that expose one another is reached from a name. -/
def LeadsToCycle (reg : Registry) (name : String) : Prop :=
  ∃ k, ReflTransGen reg.Edge name k ∧ TransGen reg.Edge k k

/-- The declaration of the first name exposes the second one, a declared name. -/
def Mentions (reg : Registry) (name name' : String) : Prop :=
  name' ∈ reg.names ∧ ∃ s, reg.lookup? name = some s ∧ (ofSchema reg [name] s).Exposes name'

variable {reg : Registry} {name : String}

/-- A name that leads to a cycle exposes another one that does. -/
theorem LeadsToCycle.exists_edge (h : reg.LeadsToCycle name) :
    ∃ s name', reg.lookup? name = some s ∧ s.Exposes reg name' ∧ reg.LeadsToCycle name' := by
  obtain ⟨k, hpath, hcycle⟩ := h
  obtain ⟨next, ⟨s, hs, hexposes⟩, hnext⟩ : ∃ next, reg.Edge name next ∧
      ReflTransGen reg.Edge next k := by
    rcases hpath.cases_head with rfl | h
    · exact TransGen.head'_iff.1 hcycle
    · exact h
  exact ⟨s, next, hs, hexposes, k, hnext, hcycle⟩

theorem LeadsToCycle.mem_names (h : reg.LeadsToCycle name) : name ∈ reg.names := by
  obtain ⟨s, -, hs, -⟩ := h.exists_edge
  exact mem_names_of_lookup? hs

end Registry

namespace TypeExpr

theorem exposes_combine_iff {how : Combination} {types : List TypeExpr} {name : String} :
    (combine how types).Exposes name ↔ ∃ t ∈ types, t.Exposes name := by
  rcases types with _ | ⟨a, _ | ⟨b, rest⟩⟩
  · simp only [combine, List.not_mem_nil, false_and, exists_false, iff_false]
    intro h
    cases h
  · simp [combine]
  · constructor
    · intro h
      cases h with
      | member hm h => exact ⟨_, hm, h⟩
    · rintro ⟨t, ht, h⟩
      exact .member ht h

theorem not_exposes_ofPrimitive (p : Primitive) (name : String) :
    ¬ (ofPrimitive p).Exposes name := by
  intro h
  unfold ofPrimitive at h
  repeat' split at h
  all_goals cases h

end TypeExpr

namespace Place

variable {reg : Registry}

/-- Only references and combinators expose names: the former the name that is cut or what the
target exposes, the latter what a member exposes. -/
theorem exposes_type_cases {p : Place} {name : String} (h : (p.type reg).Exposes name) :
    (∃ ref, p.schema = .reference ref ∧ target? reg p.visited ref = none ∧
      name = Reference.name ref) ∨
    (∃ ref s, p.schema = .reference ref ∧ target? reg p.visited ref = some s ∧
      (type reg ⟨Reference.name ref :: p.visited, s⟩).Exposes name) ∨
    ∃ kind members, p.schema = .combinator kind members ∧
      ∃ m ∈ members, (type reg ⟨p.visited, m⟩).Exposes name := by
  obtain ⟨visited, s⟩ := p
  unfold type at h
  cases s with
  | primitive q =>
    rw [ofSchema] at h
    exact absurd h (not_exposes_ofPrimitive q name)
  | array element =>
    rw [ofSchema] at h
    cases h
  | object properties required additional description =>
    rw [ofSchema] at h
    split at h <;> cases h
  | unknown raw =>
    rw [ofSchema] at h
    cases h
  | reference ref =>
    rw [ofSchema_reference] at h
    rcases ht : target? reg visited ref with _ | s
    · rw [ht] at h
      cases h
      exact .inl ⟨ref, rfl, ht, rfl⟩
    · rw [ht] at h
      exact .inr (.inl ⟨ref, s, rfl, ht, h⟩)
  | combinator kind members =>
    rw [ofSchema, ofMembers_eq_map, exposes_combine_iff] at h
    obtain ⟨_, ht, h⟩ := h
    obtain ⟨m, hm, rfl⟩ := List.mem_map.1 ht
    exact .inr (.inr ⟨kind, members, rfl, m, hm, h⟩)

/-- A declared name that is exposed by the type at a place is exposed by the schema and has been
visited before the place, or else the schema exposes a name on a cycle. -/
theorem exposes_schema_of_exposes_type {p : Place} {name : String} (hname : name ∈ reg.names)
    (h : (p.type reg).Exposes name) : name ∈ p.visited ∧ p.schema.Exposes reg name ∨
      ∃ k, p.schema.Exposes reg k ∧ TransGen reg.Edge k k := by
  induction p using (wellFounded_calls reg).induction with
  | _ p ih =>
    obtain ⟨visited, s⟩ := p
    rcases exposes_type_cases h with ⟨ref, hs, hcut, rfl⟩ | ⟨ref, target, hs, htarget, h⟩ |
        ⟨kind, members, hs, m, hm, h⟩ <;> simp only at hs <;> subst hs
    · -- a declared name is cut only if it has been visited
      rcases target?_eq_none.1 hcut with hv | hnone
      · exact .inl ⟨hv, .reference⟩
      · exact absurd hname (Registry.lookup?_eq_none_iff.1 hnone)
    · have hfound := (target?_eq_some.1 htarget).2
      rcases ih _ (mem_calls_of_target? htarget) h with ⟨hv, hexposes⟩ | ⟨k, hk, hcycle⟩
      · rcases List.mem_cons.1 hv with rfl | hv
        · -- the name that was expanded here comes back: this closes the cycle
          exact .inr ⟨_, .reference, .single ⟨target, hfound, hexposes⟩⟩
        · exact .inl ⟨hv, .target hfound hexposes⟩
      · exact .inr ⟨k, .target hfound hk, hcycle⟩
    · rcases ih _ (mem_calls_of_child (.member hm)) h with ⟨hv, hexposes⟩ | ⟨k, hk, hcycle⟩
      · exact .inl ⟨hv, .member hm hexposes⟩
      · exact .inr ⟨k, .member hm hk, hcycle⟩

/-- The type at a place exposes a declared name if the schema exposes one that leads to a cycle. -/
theorem exists_exposes_type {p : Place} {name : String} (h : p.schema.Exposes reg name)
    (hleads : reg.LeadsToCycle name) : ∃ name' ∈ reg.names, (p.type reg).Exposes name' := by
  induction p using (wellFounded_calls reg).induction generalizing name with
  | _ p ih =>
    obtain ⟨visited, s⟩ := p
    unfold type
    cases h with
    | @reference ref =>
      rw [ofSchema_reference]
      rcases htarget : target? reg visited ref with _ | s
      · exact ⟨_, hleads.mem_names, .named⟩
      · -- the walk goes on along the cycle
        obtain ⟨s', next, hs', hexposes, hnext⟩ := hleads.exists_edge
        cases (target?_eq_some.1 htarget).2.symm.trans hs'
        exact ih _ (mem_calls_of_target? htarget) hexposes hnext
    | @target ref _ s hs hexposes =>
      rw [ofSchema_reference]
      rcases htarget : target? reg visited ref with _ | s'
      · exact ⟨_, Registry.mem_names_of_lookup? hs, .named⟩
      · cases hs.symm.trans (target?_eq_some.1 htarget).2
        exact ih _ (mem_calls_of_target? htarget) hexposes hleads
    | @member kind members m _ hm hexposes =>
      obtain ⟨name', hname', h⟩ := ih _ (mem_calls_of_child (.member hm)) hexposes hleads
      rw [ofSchema, ofMembers_eq_map]
      exact ⟨name', hname', exposes_combine_iff.2 ⟨_, List.mem_map_of_mem hm, h⟩⟩

end Place

namespace Registry

variable {reg : Registry} {name : String}

theorem exists_mentions_iff : (∃ name', reg.Mentions name name') ↔ reg.LeadsToCycle name := by
  constructor
  · rintro ⟨name', hname', s, hs, h⟩
    rcases Place.exposes_schema_of_exposes_type (p := ⟨[name], s⟩) hname' h with
      ⟨hv, hexposes⟩ | ⟨k, hk, hcycle⟩
    · rw [List.mem_singleton.1 hv] at hexposes
      exact ⟨name, .refl, .single ⟨s, hs, hexposes⟩⟩
    · exact ⟨k, .single ⟨s, hs, hk⟩, hcycle⟩
  · intro h
    obtain ⟨s, next, hs, hexposes, hnext⟩ := h.exists_edge
    obtain ⟨name', hname', h⟩ := Place.exists_exposes_type (p := ⟨[name], s⟩) hexposes hnext
    exact ⟨name', hname', s, hs, h⟩

end Registry

/-- The declaration of a name exposes a declared name exactly if the name leads to a cycle of names
that expose one another. So without such a cycle no declaration exposes itself, be it directly or
by way of other declarations. -/
theorem exposes_declaration_iff (reg : Registry) :
    (∀ e ∈ reg.entries,
      Interface.declaration reg e.1 e.2 =
        "export type " ++ e.1 ++ " = " ++ (ofSchema reg [e.1] e.2).render 0 ++ ";\n\n" ∧
      ((∃ name ∈ reg.names, (ofSchema reg [e.1] e.2).Exposes name) ↔ reg.LeadsToCycle e.1)) ∧
    ((∀ k, ¬ TransGen reg.Edge k k) → ∀ k, ¬ TransGen reg.Mentions k k) := by
  refine ⟨fun e he => ⟨rfl, ?_⟩, fun hnone k hk => ?_⟩
  · have hlookup := Registry.lookup?_of_mem he
    rw [← Registry.exists_mentions_iff]
    constructor
    · rintro ⟨name, hname, h⟩
      exact ⟨name, hname, e.2, hlookup, h⟩
    · rintro ⟨name, hname, s, hs, h⟩
      cases hlookup.symm.trans hs
      exact ⟨name, hname, h⟩
  · obtain ⟨next, hnext, -⟩ := TransGen.head'_iff.1 hk
    obtain ⟨k', -, hcycle⟩ := Registry.exists_mentions_iff.1 ⟨next, hnext⟩
    exact hnone k' hcycle

/-- Two schemas that are nothing but each other, and one that holds a list of itself. -/
def alternatives : Registry where
  entries := [
    ("A", .combinator .oneOf [.reference "#/components/schemas/B", .reference "Label"]),
    ("B", .combinator .allOf [.reference "other.yaml#/definitions/A"]),
    ("C", .array (.reference "#/components/schemas/C"))]
  distinct := by decide

/-- Of two schemas that are nothing but each other the declarations are circular; those of two that
hold each other are not. -/
theorem exposes_declaration_alternatives :
    (∃ name ∈ alternatives.names, (ofSchema alternatives ["A"] (.combinator .oneOf
      [.reference "#/components/schemas/B", .reference "Label"])).Exposes name) ∧
    ∀ k, ¬ TransGen Place.mutualPair.Mentions k k := by
  constructor
  · have toB : alternatives.Edge "A" "B" := ⟨_, rfl, .member List.mem_cons_self .reference⟩
    have toA : alternatives.Edge "B" "A" := ⟨_, rfl, .member List.mem_cons_self .reference⟩
    exact ((exposes_declaration_iff alternatives).1 _ List.mem_cons_self).2.2
      ⟨"A", .refl, .head toB (.single toA)⟩
  · refine (exposes_declaration_iff Place.mutualPair).2 fun k hk => ?_
    obtain ⟨next, ⟨s, hs, hexposes⟩, -⟩ := TransGen.head'_iff.1 hk
    have hmem := Assoc.mem_of_find? hs
    simp only [Place.mutualPair, List.mem_cons, Prod.mk.injEq, List.not_mem_nil, or_false] at hmem
    rcases hmem with ⟨-, rfl⟩ | ⟨-, rfl⟩ <;> cases hexposes

end TypedClient
