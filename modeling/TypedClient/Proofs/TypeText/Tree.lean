import TypedClient.Proofs.TypeText.Reading

/-!
# The type that a text writes

`HasTree` says by rules what type a schema has: which references are names and which are replaced,
how members and properties are put together and in what order, and which keys are optional. The
rules know nothing of texts and of how types are computed. The text of a schema's type can be read,
and what is read is the type of the schema by these rules and nothing else (`read_typeText_iff`); so
no text writes two types.
-/

namespace TypedClient

open TypeExpr

/-- The type of a schema, where the visited names and the undeclared ones stand for themselves. -/
inductive HasTree (reg : Registry) : List String → Schema → TypeExpr → Prop
  | string {visited : List String} {p : Primitive} : p.kind = .string →
    p.choices.getD [] = [] → HasTree reg visited (.primitive p) .string
  | literal {visited : List String} {p : Primitive} {v : Value} : p.kind = .string →
    p.choices = some [v] → HasTree reg visited (.primitive p) (.literals [v.optionalText])
  | literals {visited : List String} {p : Primitive} {choices : List Value} : p.kind = .string →
    p.choices = some choices → 2 ≤ choices.length → HasTree reg visited (.primitive p)
      (.combination .union (choices.map fun v => .literals [v.optionalText]))
  | number {visited : List String} {p : Primitive} : p.kind.isNumeric = true →
    HasTree reg visited (.primitive p) .number
  | boolean {visited : List String} {p : Primitive} : p.kind = .boolean →
    HasTree reg visited (.primitive p) .boolean
  | unknown {visited : List String} {raw : Value} : HasTree reg visited (.unknown raw) .unknown
  | array {visited : List String} {element : Schema} {t : TypeExpr} :
    HasTree reg visited element t → HasTree reg visited (.array element) (.array t)
  | openRecord {visited required : List String} {additional : Additional Schema}
      {description : Option String} :
    HasTree reg visited (.object [] required additional description) .openRecord
  | object {visited required : List String} {properties : List (String × Schema)}
      {additional : Additional Schema} {description : Option String} {f : Schema → TypeExpr} :
    properties ≠ [] → (∀ p ∈ properties, HasTree reg visited p.2 (f p.2)) →
    HasTree reg visited (.object properties required additional description)
      (.object (properties.map fun p => (⟨p.1, decide (p.1 ∉ required)⟩, f p.2)))
  | named {visited : List String} {ref : String} :
    Reference.name ref ∈ visited ∨ reg.lookup? (Reference.name ref) = none →
    HasTree reg visited (.reference ref) (.named (Reference.name ref))
  | target {visited : List String} {ref : String} {target : Schema} {t : TypeExpr} :
    Reference.name ref ∉ visited → reg.lookup? (Reference.name ref) = some target →
    HasTree reg (Reference.name ref :: visited) target t → HasTree reg visited (.reference ref) t
  | empty {visited : List String} {kind : CombinatorKind} :
    HasTree reg visited (.combinator kind []) .unknown
  | single {visited : List String} {kind : CombinatorKind} {member : Schema} {t : TypeExpr} :
    HasTree reg visited member t → HasTree reg visited (.combinator kind [member]) t
  | intersection {visited : List String} {members : List Schema} {f : Schema → TypeExpr} :
    2 ≤ members.length → (∀ m ∈ members, HasTree reg visited m (f m)) →
    HasTree reg visited (.combinator .allOf members) (.combination .intersection (members.map f))
  | union {visited : List String} {kind : CombinatorKind} {members : List Schema}
      {f : Schema → TypeExpr} : kind ≠ .allOf →
    2 ≤ members.length → (∀ m ∈ members, HasTree reg visited m (f m)) →
    HasTree reg visited (.combinator kind members) (.combination .union (members.map f))

section Rules

variable {reg : Registry}

theorem spelled_combine (how : Combination) (ts : List TypeExpr) :
    (combine how ts).spelled = combine how (ts.map spelled) := by
  rcases ts with _ | ⟨a, _ | ⟨b, rest⟩⟩
  · rfl
  · rfl
  · rw [combine, spelled, spelledMembers_eq_map]
    rfl
    all_goals simp

theorem combine_of_two_le {how : Combination} {ts : List TypeExpr} (h : 2 ≤ ts.length) :
    combine how ts = .combination how ts := by
  rcases ts with _ | ⟨a, _ | ⟨b, rest⟩⟩
  · simp at h
  · simp at h
  · rfl

theorem hasTree_primitive (visited : List String) (p : Primitive) :
    HasTree reg visited (.primitive p) (ofSchema reg visited (.primitive p)).spelled := by
  rw [ofSchema]
  obtain ⟨_ | _ | _ | _, choices, default, format, description⟩ := p
  · obtain _ | _ | ⟨v, _ | ⟨w, vs⟩⟩ := choices
    · exact .string rfl rfl
    · exact .string rfl rfl
    · exact .literal rfl rfl
    · have h : HasTree reg visited
          (.primitive ⟨.string, some (v :: w :: vs), default, format, description⟩)
          (.combination .union ((v :: w :: vs).map fun v => .literals [v.optionalText])) :=
        .literals rfl rfl (by simp)
      simpa [ofPrimitive, spelled, combine, Function.comp_def] using h
  · exact .number rfl
  · exact .number rfl
  · exact .boolean rfl

theorem hasTree_combinator {visited : List String} (kind : CombinatorKind) {members : List Schema}
    (h : ∀ m ∈ members, HasTree reg visited m (ofSchema reg visited m).spelled) :
    HasTree reg visited (.combinator kind members)
      (ofSchema reg visited (.combinator kind members)).spelled := by
  rw [ofSchema, ofMembers_eq_map, spelled_combine, List.map_map]
  rcases members with _ | ⟨a, _ | ⟨b, rest⟩⟩
  · exact .empty
  · exact .single (h a (by simp))
  · cases kind with
    | allOf => exact .intersection (by simp) h
    | oneOf => exact .union (by simp) (by simp) h
    | anyOf => exact .union (by simp) (by simp) h

theorem hasTree_ofSchema (p : Place) : HasTree reg p.visited p.schema (p.type reg).spelled := by
  induction p using (Place.wellFounded_calls reg).induction with
  | _ p ih =>
    obtain ⟨visited, s⟩ := p
    have hchild (t : Schema) (ht : s.Child t) :
        HasTree reg visited t (ofSchema reg visited t).spelled :=
      ih ⟨visited, t⟩ (Place.mem_calls_of_child ht)
    rw [Place.type]
    cases s with
    | primitive p => exact hasTree_primitive visited p
    | array element =>
      rw [ofSchema]
      exact .array (hchild element .element)
    | object properties required additional description =>
      rw [ofSchema, ofProperties_eq_map]
      rcases properties with _ | ⟨p, ps⟩
      · exact .openRecord
      · simp only [List.isEmpty_cons, Bool.false_eq_true, ↓reduceIte, spelled,
          spelledProperties_eq_map, List.map_map]
        have h : HasTree reg visited (.object (p :: ps) required additional description)
            (.object ((p :: ps).map fun q =>
              (⟨q.1, decide (q.1 ∉ required)⟩, (ofSchema reg visited q.2).spelled))) :=
          .object (f := fun t => (ofSchema reg visited t).spelled) (List.cons_ne_nil p ps)
            fun q hq => hchild q.2 (.property hq)
        simpa [keyOf, Function.comp_def] using h
    | reference ref =>
      rw [ofSchema_reference]
      split
      · rename_i target htarget
        obtain ⟨hnew, hfound⟩ := Place.target?_eq_some.1 htarget
        exact .target hnew hfound (ih _ (Place.mem_calls_of_target? htarget))
      · rename_i htarget
        exact .named (Place.target?_eq_none.1 htarget)
    | combinator kind members => exact hasTree_combinator kind fun m hm => hchild m (.member hm)
    | unknown raw =>
      rw [ofSchema]
      exact .unknown

theorem HasTree.eq_spelled {visited : List String} {s : Schema} {t : TypeExpr}
    (h : HasTree reg visited s t) : t = (ofSchema reg visited s).spelled := by
  induction h with
  | @string visited p hkind hchoices =>
    rw [ofSchema, ofPrimitive, hkind]
    rcases hc : p.choices with _ | _ | ⟨v, vs⟩
    · rfl
    · rfl
    · rw [hc] at hchoices
      cases hchoices
  | @literal visited p v hkind hchoices =>
    rw [ofSchema, ofPrimitive, hkind, hchoices]
    rfl
  | @literals visited p choices hkind hchoices hlen =>
    rw [ofSchema, ofPrimitive, hkind, hchoices]
    rcases choices with _ | ⟨v, _ | ⟨w, vs⟩⟩
    · simp at hlen
    · simp at hlen
    · simp [spelled, combine]
  | @number visited p hkind =>
    rw [ofSchema, ofPrimitive]
    rcases hk : p.kind <;> rw [hk] at hkind <;> first | rfl | cases hkind
  | @boolean visited p hkind =>
    rw [ofSchema, ofPrimitive, hkind]
    rfl
  | unknown =>
    rw [ofSchema]
    rfl
  | array _ ih => rw [ofSchema, spelled, ih]
  | openRecord =>
    rw [ofSchema]
    rfl
  | @object visited required properties additional description f hne _ ih =>
    rw [ofSchema, ofProperties_eq_map, if_neg (by simpa using hne), spelled,
      spelledProperties_eq_map, List.map_map]
    refine congrArg _ (List.map_congr_left fun p hp => ?_)
    simp [keyOf, ih p hp]
  | named h =>
    rw [ofSchema_reference, Place.target?_eq_none.2 h]
    rfl
  | target hnew hfound _ ih =>
    rw [ofSchema_reference, Place.target?_eq_some.2 ⟨hnew, hfound⟩]
    exact ih
  | empty =>
    rw [ofSchema, ofMembers_eq_map]
    rfl
  | single _ ih =>
    rw [ofSchema, ofMembers_eq_map]
    exact ih
  | @intersection visited members f hlen _ ih =>
    rw [ofSchema, ofMembers_eq_map, spelled_combine, List.map_map, combine_of_two_le (by simpa)]
    exact congrArg _ (List.map_congr_left fun m hm => ih m hm)
  | @union visited kind members f hkind hlen _ ih =>
    rw [ofSchema, ofMembers_eq_map, spelled_combine, List.map_map, combine_of_two_le (by simpa)]
    cases kind with
    | allOf => exact absurd rfl hkind
    | oneOf => exact congrArg _ (List.map_congr_left fun m hm => ih m hm)
    | anyOf => exact congrArg _ (List.map_congr_left fun m hm => ih m hm)

end Rules

/-- At any level and whatever is visited, the text of the type of a schema can be read, and it is
read as the type that the schema has by the rules. -/
theorem read_typeText_iff {reg : Registry} (hreg : reg.Names IsSchemaName EndsOnLine) {s : Schema}
    (hs : s.Names IsSchemaName EndsOnLine) (visited : List String) (level : Int) :
    (∃ t, TypeReader.read (s.typeText reg visited level) = some t) ∧
      ∀ t, TypeReader.read (s.typeText reg visited level) = some t ↔ HasTree reg visited s t := by
  have hread : TypeReader.read (s.typeText reg visited level) =
      some (ofSchema reg visited s).spelled :=
    TypeReader.read_render (Place.wellFormed_type hreg ⟨visited, s⟩ hs) level
  refine ⟨⟨_, hread⟩, fun t => ?_⟩
  rw [hread, Option.some.injEq]
  constructor
  · rintro rfl
    exact hasTree_ofSchema ⟨visited, s⟩
  · exact fun h => h.eq_spelled.symm

/-- A registry whose only schema has a key that is no identifier and a reference to itself. -/
def nodeRegistry : Registry where
  entries := [
    ("Node", .object [("next-node", .reference "#/components/schemas/Node")] [] (.allowed true)
      none)]
  distinct := by decide

/-- Two texts that look like operators, and nothing. -/
def marks : List Value := [.text "a | \"b", .text ") & (", .null]

def markedNode : Schema :=
  .combinator .allOf [
    .reference "#/components/schemas/Node",
    .primitive ⟨.string, some marks, .null, none, none⟩]

/-- The types of the two members of `markedNode`. -/
def markedMember : Schema → TypeExpr
  | .reference _ => .object [(⟨"next-node", true⟩, .named "Node")]
  | _ =>
    .combination .union [.literals [some "a | \"b"], .literals [some ") & ("], .literals [none]]

theorem read_typeText_markedNode :
    TypeReader.read (markedNode.typeText nodeRegistry [] 0) = some (.combination .intersection [
      .object [(⟨"next-node", true⟩, .named "Node")],
      .combination .union
        [.literals [some "a | \"b"], .literals [some ") & ("], .literals [none]]]) := by
  have hname : IsSchemaName (Reference.name "#/components/schemas/Node") :=
    ⟨by decide, List.all_eq_true.1 (by decide), by decide⟩
  have hnode : (Schema.reference "#/components/schemas/Node").Names IsSchemaName EndsOnLine :=
    .of_reference hname
  have hreg : nodeRegistry.Names IsSchemaName EndsOnLine := by
    simp only [Registry.Names, nodeRegistry, List.mem_singleton, forall_eq]
    refine .of_child (by simp) (fun _ _ _ _ h => ?_) fun t ht => ?_
    · cases h
      simp [EndsOnLine]
    · cases ht with
      | property hp => simpa [List.mem_singleton.1 hp] using hnode
  have hs : markedNode.Names IsSchemaName EndsOnLine := by
    refine .of_child (by simp [markedNode]) (by simp [markedNode]) fun t ht => ?_
    rcases ht with _ | _ | hm
    rcases List.mem_cons.1 hm with rfl | hm
    · exact hnode
    · rw [List.mem_singleton.1 hm]
      exact .of_child (by simp) (by simp) fun t ht => by cases ht
  refine ((read_typeText_iff hreg hs [] 0).2 _).2 (.intersection (f := markedMember) ?_ ?_)
  · decide
  · intro m hm
    rcases List.mem_cons.1 hm with rfl | hm
    · refine .target (by decide) rfl (.object (f := fun _ => .named "Node") (by simp) ?_)
      intro p hp
      rw [List.mem_singleton.1 hp]
      exact .named (.inl (by decide))
    · rw [List.mem_singleton.1 hm]
      exact .literals rfl rfl (show 2 ≤ marks.length by decide)

end TypedClient
