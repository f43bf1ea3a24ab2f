import TypedClient.Proofs.Cycles

/-!
# The choices on the walk

The choices that the type of a schema lists are those of the schemas without parts at the places
that the walk comes to (`Place.mem_literals_iff`): a place adds the choices of its own schema to
those of the places it calls (`Place.literals_eq`). The literal types in the type are written from
them and from nothing else (`Place.lists_type_iff`).
-/

namespace TypedClient

open TypeExpr

namespace Schema

variable (reg : Registry) (visited : List String)

theorem memberLiterals_eq_flatMap : ∀ ss : List Schema,
    memberLiterals reg visited ss = ss.flatMap (literals reg visited)
  | [] => by rw [memberLiterals, List.flatMap_nil]
  | s :: ss => by rw [memberLiterals, List.flatMap_cons, memberLiterals_eq_flatMap ss]

theorem propertyLiterals_eq_flatMap : ∀ ps : List (String × Schema),
    propertyLiterals reg visited ps = ps.flatMap fun p => literals reg visited p.2
  | [] => by rw [propertyLiterals, List.flatMap_nil]
  | (_, s) :: ps => by rw [propertyLiterals, List.flatMap_cons, propertyLiterals_eq_flatMap ps]

theorem literals_reference (ref : String) :
    literals reg visited (.reference ref) =
      match Place.target? reg visited ref with
      | some s => literals reg (Reference.name ref :: visited) s
      | none => [] := by
  rw [literals]
  unfold Place.target?
  split
  · rfl
  · split <;> rename_i h <;> simp only [h]

/-- The choices that a schema adds to those of its parts. -/
def ownLiterals : Schema → List Value
  | .primitive p => p.literals
  | _ => []

end Schema

/-- The texts in the literal types of a type. -/
inductive TypeExpr.Lists (text : Option String) : TypeExpr → Prop
  | literals {choices : List (Option String)} : text ∈ choices → Lists text (.literals choices)
  | array {element : TypeExpr} : Lists text element → Lists text (.array element)
  | object {properties : List (PropertyKey × TypeExpr)} {p : PropertyKey × TypeExpr} :
    p ∈ properties → Lists text p.2 → Lists text (.object properties)
  | combination {how : Combination} {members : List TypeExpr} {m : TypeExpr} : m ∈ members →
    Lists text m → Lists text (.combination how members)

namespace Place

variable {reg : Registry}

/-- The choices that the type at a place lists. -/
def literals (reg : Registry) (p : Place) : List Value :=
  p.schema.literals reg p.visited

/-- A place lists the choices of its own schema and those of the places that it calls. -/
theorem literals_eq (p : Place) :
    p.literals reg = p.schema.ownLiterals ++ (p.calls reg).flatMap (literals reg) := by
  obtain ⟨visited, s⟩ := p
  unfold literals calls Schema.ownLiterals
  cases s with
  | primitive q => simp only [Schema.literals, List.flatMap_nil, List.append_nil]
  | array element => simp [Schema.literals]
  | object properties required additional description =>
    simp [Schema.literals, Schema.propertyLiterals_eq_flatMap, List.flatMap_map]
  | reference ref =>
    simp only [Schema.literals_reference]
    rcases target? reg visited ref with _ | s <;> simp
  | combinator kind members =>
    simp [Schema.literals, Schema.memberLiterals_eq_flatMap, List.flatMap_map]
  | unknown raw => simp [Schema.literals]

/-- What is listed at a place is a choice of a schema that the walk comes to. -/
theorem mem_literals_iff {p : Place} {v : Value} :
    v ∈ p.literals reg ↔ ∃ names r, Path reg p names r ∧ v ∈ r.schema.ownLiterals := by
  induction p using (wellFounded_calls reg).induction with
  | _ p ih =>
    rw [literals_eq, List.mem_append, List.mem_flatMap]
    constructor
    · rintro (h | ⟨q, hq, h⟩)
      · exact ⟨[], p, .nil p, h⟩
      · obtain ⟨names, r, hpath, h⟩ := (ih q hq).1 h
        exact ⟨_, r, .cons hq hpath, h⟩
    · rintro ⟨_, r, ⟨⟩ | ⟨hq, hpath⟩, h⟩
      · exact .inl h
      · exact .inr ⟨_, hq, (ih _ hq).2 ⟨_, r, hpath, h⟩⟩

end Place

namespace TypeExpr

variable {text : Option String}

theorem lists_literals {choices : List (Option String)} :
    (literals choices).Lists text ↔ text ∈ choices :=
  ⟨fun h => by cases h; assumption, .literals⟩

theorem lists_array {element : TypeExpr} : (array element).Lists text ↔ element.Lists text :=
  ⟨fun h => by cases h; assumption, .array⟩

theorem lists_object {properties : List (PropertyKey × TypeExpr)} :
    (object properties).Lists text ↔ ∃ t ∈ properties.map (·.2), t.Lists text := by
  constructor
  · rintro (_ | _ | ⟨hp, h⟩)
    exact ⟨_, List.mem_map_of_mem hp, h⟩
  · rintro ⟨_, ht, h⟩
    obtain ⟨p, hp, rfl⟩ := List.mem_map.1 ht
    exact .object hp h

theorem lists_combine (how : Combination) (members : List TypeExpr) :
    (combine how members).Lists text ↔ ∃ m ∈ members, m.Lists text := by
  rcases members with _ | ⟨a, _ | ⟨b, rest⟩⟩
  · exact iff_of_false nofun (by simp)
  · simp [combine]
  · constructor
    · rintro (_ | _ | _ | ⟨hm, h⟩)
      exact ⟨_, hm, h⟩
    · rintro ⟨m, hm, h⟩
      exact .combination hm h

theorem lists_ofPrimitive (p : Primitive) :
    (ofPrimitive p).Lists text ↔ ∃ v ∈ p.literals, v.optionalText = text := by
  obtain ⟨kind, choices, default, format, description⟩ := p
  unfold ofPrimitive Primitive.literals
  cases kind with
  | string =>
    rcases choices with _ | _ | ⟨v, vs⟩
    · exact iff_of_false nofun (by simp)
    · exact iff_of_false nofun (by simp)
    · exact lists_literals.trans List.mem_map
  | _ => exact iff_of_false nofun (by simp)

end TypeExpr

namespace Place

variable {reg : Registry}

theorem lists_assemble (p : Place) {types : List TypeExpr}
    (h : types.length = (p.calls reg).length) {text : Option String} :
    (p.assemble types).Lists text ↔
      (∃ v ∈ p.schema.ownLiterals, v.optionalText = text) ∨ ∃ t ∈ types, t.Lists text := by
  obtain ⟨visited, s⟩ := p
  unfold calls at h
  unfold assemble Schema.ownLiterals
  cases s with
  | primitive q =>
    obtain rfl := List.length_eq_zero_iff.1 h
    simp [lists_ofPrimitive]
  | array element =>
    obtain ⟨t, rfl⟩ := List.length_eq_one_iff.1 h
    simp [lists_array]
  | object properties required additional description =>
    rw [List.length_map] at h
    simp only
    split
    · rename_i hempty
      rw [List.isEmpty_iff.1 hempty] at h
      obtain rfl := List.length_eq_zero_iff.1 h
      exact iff_of_false nofun (by simp)
    · rw [lists_object, List.map_snd_zip (by simp [h])]
      simp
  | reference ref =>
    rcases types with _ | ⟨t, _ | ⟨_, _⟩⟩
    · exact iff_of_false nofun (by simp)
    · simp
    · cases htarget : target? reg visited ref <;> simp [htarget] at h
  | combinator kind members => simp [lists_combine]
  | unknown raw =>
    obtain rfl := List.length_eq_zero_iff.1 h
    exact iff_of_false nofun (by simp)

/-- The literal types in the type at a place are written from the choices that are listed there. -/
theorem lists_type_iff {p : Place} {text : Option String} :
    (p.type reg).Lists text ↔ ∃ v ∈ p.literals reg, v.optionalText = text := by
  induction p using (wellFounded_calls reg).induction with
  | _ p ih =>
    rw [type_eq_assemble, lists_assemble p (List.length_map _), literals_eq]
    simp only [List.mem_append, List.mem_flatMap, or_and_right, exists_or]
    refine or_congr_right ⟨?_, ?_⟩
    · rintro ⟨_, ht, h⟩
      obtain ⟨q, hq, rfl⟩ := List.mem_map.1 ht
      obtain ⟨v, hv, h⟩ := (ih q hq).1 h
      exact ⟨v, ⟨q, hq, hv⟩, h⟩
    · rintro ⟨v, ⟨q, hq, hv⟩, h⟩
      exact ⟨_, List.mem_map_of_mem hq, (ih q hq).2 ⟨v, hv, h⟩⟩

end Place

end TypedClient
