import Mathlib.Tactic.Tauto
import TypedClient.TypeExpr.OfSchema

/-!
# The walk that types a schema

A place is a schema with the names visited before it. The type at a place is put together from the
types at the places it calls (`type_eq_assemble`), and only a call from a reference to its target
visits a name. So the names expanded along a path of calls are exactly what the path adds to the
visited ones (`visited_eq`): no name is expanded twice, and what is expanded beside a path plays no
part. Every call leaves fewer names unvisited or a smaller schema (`wellFounded_calls`).
-/

namespace TypedClient

open TypeExpr

theorem Registry.lookup?_eq_none_iff {reg : Registry} {name : String} :
    reg.lookup? name = none ↔ name ∉ reg.names := by
  rw [← Option.not_isSome_iff_eq_none]
  exact not_congr Assoc.find?_isSome_iff

namespace TypeExpr

variable (reg : Registry) (visited : List String)

theorem ofMembers_eq_map : ∀ ss : List Schema,
    ofMembers reg visited ss = ss.map (ofSchema reg visited)
  | [] => by rw [ofMembers, List.map_nil]
  | s :: ss => by rw [ofMembers, List.map_cons, ofMembers_eq_map ss]

/-- The key under which a property is declared. -/
def keyOf (required : List String) (property : String × Schema) : PropertyKey :=
  ⟨property.1, !required.contains property.1⟩

theorem ofProperties_eq_map (required : List String) : ∀ ps : List (String × Schema),
    ofProperties reg visited required ps =
      ps.map fun p => (keyOf required p, ofSchema reg visited p.2)
  | [] => by rw [ofProperties, List.map_nil]
  | (_, _) :: ps => by rw [ofProperties, List.map_cons, ofProperties_eq_map required ps]; rfl

end TypeExpr

/-- A schema that another one consists of. -/
inductive Schema.Child : Schema → Schema → Prop
  | element {element : Schema} : Child (.array element) element
  | property {properties : List (String × Schema)} {required : List String}
      {additional : Additional Schema} {description : Option String} {p : String × Schema} :
    p ∈ properties → Child (.object properties required additional description) p.2
  | member {kind : CombinatorKind} {members : List Schema} {m : Schema} : m ∈ members →
    Child (.combinator kind members) m

theorem Schema.Child.sizeOf_lt {s t : Schema} (h : s.Child t) : sizeOf t < sizeOf s := by
  cases h with
  | element => simp
  | @property _ _ _ _ p hp =>
    have := List.sizeOf_lt_of_mem hp
    obtain ⟨n, s⟩ := p
    simp only [Prod.mk.sizeOf_spec, Schema.object.sizeOf_spec] at *
    omega
  | member hm =>
    have := List.sizeOf_lt_of_mem hm
    simp only [Schema.combinator.sizeOf_spec]
    omega

/-- A schema with the names that are visited before it. -/
structure Place where
  visited : List String
  schema : Schema

namespace Place

variable (reg : Registry)

/-- The schema that a reference is expanded to, if it is. -/
def target? (visited : List String) (ref : String) : Option Schema :=
  if Reference.name ref ∈ visited then none else reg.lookup? (Reference.name ref)

/-- The places that the walk calls from a place, in order. -/
def calls (p : Place) : List Place :=
  match p.schema with
  | .array element => [⟨p.visited, element⟩]
  | .object properties _ _ _ => properties.map fun q => ⟨p.visited, q.2⟩
  | .reference ref =>
    (target? reg p.visited ref).toList.map fun s => ⟨Reference.name ref :: p.visited, s⟩
  | .combinator _ members => members.map fun s => ⟨p.visited, s⟩
  | _ => []

/-- The type at a place, given the types at the places it calls. -/
def assemble (p : Place) (types : List TypeExpr) : TypeExpr :=
  match p.schema with
  | .primitive q => ofPrimitive q
  | .array _ => .array (types.headD .unknown)
  | .object properties required _ _ =>
    if properties.isEmpty then .openRecord
    else .object ((properties.map (keyOf required)).zip types)
  | .reference ref => types.headD (.named (Reference.name ref))
  | .combinator kind _ => combine (combinationOf kind) types
  | .unknown _ => .unknown

def type (p : Place) : TypeExpr :=
  ofSchema reg p.visited p.schema

/-- The name that is expanded by a call from the place. -/
def expanded (p : Place) : List String :=
  match p.schema with
  | .reference ref => [Reference.name ref]
  | _ => []

variable {reg}

theorem target?_eq_some {visited : List String} {ref : String} {s : Schema} :
    target? reg visited ref = some s ↔
      Reference.name ref ∉ visited ∧ reg.lookup? (Reference.name ref) = some s := by
  unfold target?
  split <;> simp_all

theorem target?_eq_none {visited : List String} {ref : String} :
    target? reg visited ref = none ↔
      Reference.name ref ∈ visited ∨ reg.lookup? (Reference.name ref) = none := by
  unfold target?
  split <;> simp_all

end Place

theorem TypeExpr.ofSchema_reference (reg : Registry) (visited : List String) (ref : String) :
    ofSchema reg visited (.reference ref) =
      match Place.target? reg visited ref with
      | some s => ofSchema reg (Reference.name ref :: visited) s
      | none => .named (Reference.name ref) := by
  rw [ofSchema]
  unfold Place.target?
  split
  · rfl
  · split <;> rename_i h <;> simp only [h]

namespace Place

variable {reg : Registry}

theorem target?_of_type_reference {visited : List String} {ref : String}
    (h : target? reg visited ref = none) :
    ofSchema reg visited (.reference ref) = .named (Reference.name ref) := by
  rw [ofSchema_reference, h]

/-- The type at a place is made from the types at the places it calls and from nothing else. -/
theorem type_eq_assemble (p : Place) : p.type reg = p.assemble ((p.calls reg).map (type reg)) := by
  obtain ⟨visited, s⟩ := p
  unfold type assemble calls
  cases s with
  | primitive q => simp only [ofSchema]
  | array element => simp only [ofSchema, List.map_cons, List.headD_cons]
  | object properties required additional description =>
    simp only [ofSchema, ofProperties_eq_map, List.map_map]
    split
    · rfl
    · rw [List.zip_map']
      rfl
  | reference ref =>
    simp only [ofSchema_reference]
    rcases target? reg visited ref with _ | s <;> rfl
  | combinator kind members =>
    simp only [ofSchema, ofMembers_eq_map, List.map_map]
    rfl
  | unknown raw => simp only [ofSchema]

/-- A call leads to a child of the schema with the same names visited, or from a reference to its
target with the name visited. -/
theorem mem_calls_cases {p q : Place} (h : q ∈ p.calls reg) :
    (p.schema.Child q.schema ∧ q.visited = p.visited ∧ p.expanded = []) ∨
      ∃ ref, p.schema = .reference ref ∧ Reference.name ref ∉ p.visited ∧
        reg.lookup? (Reference.name ref) = some q.schema ∧
        q.visited = Reference.name ref :: p.visited ∧ p.expanded = [Reference.name ref] := by
  obtain ⟨visited, s⟩ := p
  unfold calls at h
  cases s with
  | primitive => simp at h
  | array element =>
    rw [List.mem_singleton.1 h]
    exact .inl ⟨.element, rfl, rfl⟩
  | object properties required additional description =>
    obtain ⟨a, ha, rfl⟩ := List.mem_map.1 h
    exact .inl ⟨.property ha, rfl, rfl⟩
  | reference ref =>
    obtain ⟨s, hs, rfl⟩ := List.mem_map.1 h
    obtain ⟨hnew, hfound⟩ := target?_eq_some.1 (Option.mem_toList.1 hs)
    exact .inr ⟨ref, rfl, hnew, hfound, rfl, rfl⟩
  | combinator kind members =>
    obtain ⟨a, ha, rfl⟩ := List.mem_map.1 h
    exact .inl ⟨.member ha, rfl, rfl⟩
  | unknown raw => simp at h

theorem mem_calls_of_child {p : Place} {s : Schema} (h : p.schema.Child s) :
    ⟨p.visited, s⟩ ∈ p.calls reg := by
  obtain ⟨visited, s'⟩ := p
  unfold calls
  cases h with
  | element => exact List.mem_singleton_self _
  | property hp => exact List.mem_map_of_mem hp
  | member hm => exact List.mem_map_of_mem hm

theorem mem_calls_of_target? {visited : List String} {ref : String} {s : Schema}
    (h : target? reg visited ref = some s) :
    ⟨Reference.name ref :: visited, s⟩ ∈ calls reg ⟨visited, .reference ref⟩ := by
  simp [calls, h]

/-- A call hands on the visited names, with the expanded one in front if there is one. -/
theorem visited_of_mem_calls {p q : Place} (h : q ∈ p.calls reg) :
    q.visited = p.expanded ++ p.visited ∧ ∀ n ∈ p.expanded, n ∈ reg.names ∧ n ∉ p.visited := by
  obtain ⟨-, hv, he⟩ | ⟨ref, -, hnew, hfound, hv, he⟩ := mem_calls_cases h
  · rw [he]
    exact ⟨hv, by simp⟩
  · rw [he]
    refine ⟨hv, fun n hn => ?_⟩
    rw [List.mem_singleton.1 hn]
    exact ⟨Registry.mem_names_of_lookup? hfound, hnew⟩

/-- The names still to visit, and the size of the schema among places with the same ones. -/
noncomputable def rank (reg : Registry) (p : Place) : Nat × Nat :=
  ((reg.unvisited p.visited).length, sizeOf p.schema)

theorem rank_lt_of_mem_calls {p q : Place} (h : q ∈ p.calls reg) :
    Prod.Lex (· < ·) (· < ·) (q.rank reg) (p.rank reg) := by
  unfold rank
  obtain ⟨hchild, hv, -⟩ | ⟨ref, -, hnew, hfound, hv, -⟩ := mem_calls_cases h
  · rw [hv]
    exact .right _ hchild.sizeOf_lt
  · rw [hv]
    exact .left _ _
      (Registry.length_unvisited_cons_lt (Registry.mem_names_of_lookup? hfound) hnew)

theorem wellFounded_calls (reg : Registry) : WellFounded fun q p : Place => q ∈ p.calls reg :=
  Subrelation.wf rank_lt_of_mem_calls
    (InvImage.wf (rank reg) (Prod.lex Nat.lt_wfRel Nat.lt_wfRel).wf)

/-- A path of calls from a place to a place, with the names expanded on it, the last one first. -/
inductive Path (reg : Registry) : Place → List String → Place → Prop
  | nil (p : Place) : Path reg p [] p
  | cons {p q r : Place} {names : List String} :
    q ∈ p.calls reg → Path reg q names r → Path reg p (names ++ p.expanded) r

namespace Path

variable {p r : Place} {names : List String}

/-- At the end of a path the names of the path are visited beside those visited at its start. -/
theorem visited_eq (h : Path reg p names r) : r.visited = names ++ p.visited := by
  induction h with
  | nil => rfl
  | cons hq _ ih => rw [ih, (visited_of_mem_calls hq).1, List.append_assoc]

theorem mem_names_notMem_visited (h : Path reg p names r) :
    ∀ n ∈ names, n ∈ reg.names ∧ n ∉ p.visited := by
  induction h with
  | nil => simp
  | cons hq _ ih =>
    obtain ⟨hv, he⟩ := visited_of_mem_calls hq
    intro n hn
    rcases List.mem_append.1 hn with hn | hn
    · obtain ⟨hreg, hnew⟩ := ih n hn
      rw [hv, List.mem_append, not_or] at hnew
      exact ⟨hreg, hnew.2⟩
    · exact he n hn

theorem nodup_expanded (p : Place) : p.expanded.Nodup := by
  unfold expanded
  split <;> simp

theorem nodup (h : Path reg p names r) : names.Nodup := by
  induction h with
  | nil => exact List.nodup_nil
  | cons hq hpath ih =>
    refine List.nodup_append.2 ⟨ih, nodup_expanded _, fun a ha b hb hab => ?_⟩
    -- what is expanded further down was not visited here, and this call visits its name
    have hnew := (hpath.mem_names_notMem_visited a ha).2
    rw [(visited_of_mem_calls hq).1, List.mem_append, not_or] at hnew
    exact hnew.1 (hab ▸ hb)

/-- Nested expansions are at most as many as there are names to visit. -/
theorem length_le (h : Path reg p names r) : names.length ≤ (reg.unvisited p.visited).length := by
  refine h.nodup.length_le_of_subset fun n hn => ?_
  obtain ⟨hreg, hnew⟩ := h.mem_names_notMem_visited n hn
  exact List.mem_filter.2 ⟨hreg, by simpa using hnew⟩

end Path

/-- A reference is printed as its bare name, at every level, and nothing is called for it. -/
def PrintsName (reg : Registry) (p : Place) (ref : String) : Prop :=
  p.calls reg = [] ∧ ∀ level, p.schema.typeText reg p.visited level = Reference.name ref

/-- A reference is expanded: its target is called with the name visited, and printed in its
place. -/
def PrintsTarget (reg : Registry) (p : Place) (ref : String) : Prop :=
  ∃ target, reg.lookup? (Reference.name ref) = some target ∧
    p.calls reg = [⟨Reference.name ref :: p.visited, target⟩] ∧
    ∀ level, p.schema.typeText reg p.visited level =
      target.typeText reg (Reference.name ref :: p.visited) level

theorem printsName_iff {visited : List String} {ref : String} :
    PrintsName reg ⟨visited, .reference ref⟩ ref ↔ target? reg visited ref = none := by
  constructor
  · rintro ⟨hcalls, -⟩
    simpa [calls] using hcalls
  · intro h
    refine ⟨by simp [calls, h], fun level => ?_⟩
    simp only [Schema.typeText, ofSchema_reference, h, render]

theorem printsTarget_of_target? {visited : List String} {ref : String} {target : Schema}
    (h : target? reg visited ref = some target) :
    PrintsTarget reg ⟨visited, .reference ref⟩ ref := by
  refine ⟨target, (target?_eq_some.1 h).2, by simp [calls, h], fun level => ?_⟩
  simp only [Schema.typeText, ofSchema_reference, h]

/-- Along every path of calls from a schema the expanded names are distinct, declared and not
visited from the start, so they are at most as many as the declared names that are not visited, and
the calls are well-founded. A reference at the end of the path is printed as its bare name exactly
if its name is visited from the start, expanded on the path, or not declared; otherwise its target
is printed in its place. -/
theorem expansions_on_path (reg : Registry) :
    (WellFounded fun q p : Place => q ∈ p.calls reg) ∧
    (∀ p : Place, p.type reg = p.assemble ((p.calls reg).map (type reg))) ∧
    ∀ (visited : List String) (s : Schema) (names : List String) (r : Place),
      Path reg ⟨visited, s⟩ names r →
        names.Nodup ∧ (∀ n ∈ names, n ∈ reg.names ∧ n ∉ visited) ∧
        names.length ≤ (reg.unvisited visited).length ∧
        ∀ ref, r.schema = .reference ref →
          (PrintsName reg r ref ↔ Reference.name ref ∈ visited ∨ Reference.name ref ∈ names ∨
            Reference.name ref ∉ reg.names) ∧
          (¬ PrintsName reg r ref → PrintsTarget reg r ref) := by
  refine ⟨wellFounded_calls reg, type_eq_assemble, fun visited s names r h => ?_⟩
  refine ⟨h.nodup, h.mem_names_notMem_visited, h.length_le, fun ref href => ?_⟩
  obtain ⟨visited', s'⟩ := r
  have hv : visited' = names ++ visited := h.visited_eq
  simp only at href
  subst hv href
  rw [printsName_iff]
  refine ⟨?_, fun hne => ?_⟩
  · rw [target?_eq_none, Registry.lookup?_eq_none_iff, List.mem_append]
    tauto
  · obtain ⟨target, ht⟩ := Option.ne_none_iff_exists'.1 hne
    exact printsTarget_of_target? ht

/-- Two schemas that refer to each other, one of them under a path of its own. -/
def mutualPair : Registry where
  entries := [
    ("A", .object [("next", .reference "#/components/schemas/B")] [] (.allowed true) none),
    ("B", .array (.reference "common.yaml#/definitions/A"))]
  distinct := by decide

/-- The second time the path reaches the first of the two it prints the name. -/
theorem expansions_on_path_mutualPair :
    Path mutualPair ⟨[], .reference "#/components/schemas/A"⟩ ["B", "A"]
        ⟨["B", "A"], .reference "common.yaml#/definitions/A"⟩ ∧
      ["B", "A"].length ≤ (mutualPair.unvisited []).length ∧
      PrintsName mutualPair ⟨["B", "A"], .reference "common.yaml#/definitions/A"⟩
        "common.yaml#/definitions/A" := by
  have element : Path mutualPair ⟨["B", "A"], .array (.reference "common.yaml#/definitions/A")⟩ []
      ⟨["B", "A"], .reference "common.yaml#/definitions/A"⟩ := .cons List.mem_cons_self (.nil _)
  have second : Path mutualPair ⟨["A"], .reference "#/components/schemas/B"⟩ ["B"] _ :=
    .cons List.mem_cons_self element
  have property : Path mutualPair ⟨["A"], .object [("next", .reference "#/components/schemas/B")]
      [] (.allowed true) none⟩ ["B"] _ := .cons List.mem_cons_self second
  have path : Path mutualPair ⟨[], .reference "#/components/schemas/A"⟩ ["B", "A"] _ :=
    .cons List.mem_cons_self property
  obtain ⟨-, -, length_le, printed⟩ := (expansions_on_path mutualPair).2.2 _ _ _ _ path
  exact ⟨path, length_le, (printed _ rfl).1.2 (.inr (.inl (by decide)))⟩

end Place

end TypedClient
