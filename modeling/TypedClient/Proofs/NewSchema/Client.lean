import TypedClient.Proofs.NewSchema.Document
import TypedClient.Proofs.Signatures
import TypedClient.Proofs.TopLevelNames
import TypedClient.Proofs.TypeText.WellFormed

/-!
# A schema that nothing mentions

A schema is looked up for references that mention its name and for nothing else. So a new schema
that no other schema mentions leaves every other declaration as it is, and if no parameter mentions
it either, every example call. A project changes by the declaration of the new schema alone
(`generate_insertSchema`); whether bodies and responses mention it makes no difference, because
signatures spell out no declared schema.
-/

namespace TypedClient

open Text Value

/-- A schema mentions a name: one of the references in it leads there. -/
def Schema.Mentions (name : String) (s : Schema) : Prop :=
  ∃ ref, s.Part (.reference ref) ∧ Reference.name ref = name

theorem Schema.Mentions.of_child {name : String} {s t : Schema} (h : s.Child t)
    (ht : t.Mentions name) : s.Mentions name := by
  obtain ⟨ref, hpart, href⟩ := ht
  exact ⟨ref, .child h hpart, href⟩

theorem Schema.name_ne_of_not_mentions {name ref : String}
    (h : ¬ (Schema.reference ref).Mentions name) : Reference.name ref ≠ name :=
  fun href => h ⟨ref, .self _, href⟩

/-- No parameter of an endpoint mentions a name. -/
def Endpoint.Avoids (name : String) (e : Endpoint) : Prop :=
  ∀ p ∈ e.parameters, ∀ s, p.schema = some s → ¬ s.Mentions name

/-- Two registries that differ in what they hold under a name, which the schemas of the first one do
not mention. -/
structure Registry.AgreesBeyond (name : String) (reg reg' : Registry) : Prop where
  lookup : ∀ other, other ≠ name → reg'.lookup? other = reg.lookup? other
  unmentioned : ∀ e ∈ reg.entries, ¬ e.2.Mentions name

namespace Registry.AgreesBeyond

variable {name : String} {reg reg' : Registry}

/-! ## Types -/

theorem calls_eq (h : AgreesBeyond name reg reg') {p : Place} (hp : ¬ p.schema.Mentions name) :
    p.calls reg' = p.calls reg := by
  obtain ⟨visited, s⟩ := p
  cases s with
  | reference ref =>
    have hlookup := h.lookup _ (Schema.name_ne_of_not_mentions hp)
    simp only [Place.calls, Place.target?, hlookup]
  | _ => rfl

theorem not_mentions_of_mem_calls (h : AgreesBeyond name reg reg') {p q : Place}
    (hp : ¬ p.schema.Mentions name) (hq : q ∈ p.calls reg) : ¬ q.schema.Mentions name := by
  obtain ⟨hchild, -⟩ | ⟨ref, -, -, hfound, -⟩ := Place.mem_calls_cases hq
  · exact fun hmentions => hp (.of_child hchild hmentions)
  · exact h.unmentioned _ (Assoc.mem_of_find? hfound)

/-- A schema that does not mention the name is walked alike in both registries. -/
theorem simulation (h : AgreesBeyond name reg reg') :
    Place.Simulation reg reg' fun p q => p = q ∧ ¬ p.schema.Mentions name := by
  rintro p _ ⟨rfl, hp⟩
  rw [h.calls_eq hp]
  exact ⟨rfl, List.forall₂_same.2 fun q hq => ⟨rfl, h.not_mentions_of_mem_calls hp hq⟩⟩

theorem typeText_eq (h : AgreesBeyond name reg reg') {s : Schema} (hs : ¬ s.Mentions name)
    (visited : List String) (level : Int) :
    s.typeText reg' visited level = s.typeText reg visited level := by
  have htype := Place.type_eq_of_simulation (p := ⟨visited, s⟩) h.simulation ⟨rfl, hs⟩
  rw [Schema.typeText, Schema.typeText]
  exact congrArg _ htype.symm

theorem literals_eq (h : AgreesBeyond name reg reg') {s : Schema} (hs : ¬ s.Mentions name)
    (visited : List String) : s.literals reg' visited = s.literals reg visited :=
  (Place.literals_eq_of_simulation (p := ⟨visited, s⟩) h.simulation ⟨rfl, hs⟩).symm

/-! ## Example calls -/

theorem resolve_eq (h : AgreesBeyond name reg reg') {s : Schema} (hs : ¬ s.Mentions name) :
    reg'.resolve s = reg.resolve s := by
  cases s with
  | reference ref => rw [resolve, resolve, h.lookup _ (Schema.name_ne_of_not_mentions hs)]
  | _ => rfl

theorem map_resolve_eq (h : AgreesBeyond name reg reg') {s : Option Schema}
    (hs : ∀ t, s = some t → ¬ t.Mentions name) : s.map reg'.resolve = s.map reg.resolve :=
  Option.map_congr fun t ht => h.resolve_eq (hs t ht)

theorem isNumeric_eq (h : AgreesBeyond name reg reg') {s : Option Schema}
    (hs : ∀ t, s = some t → ¬ t.Mentions name) : reg'.isNumeric s = reg.isNumeric s := by
  unfold isNumeric
  rw [h.map_resolve_eq hs]

theorem firstChoice?_eq (h : AgreesBeyond name reg reg') {s : Option Schema}
    (hs : ∀ t, s = some t → ¬ t.Mentions name) : reg'.firstChoice? s = reg.firstChoice? s := by
  unfold firstChoice?
  rw [h.map_resolve_eq hs]

theorem pathValue_eq (h : AgreesBeyond name reg reg') (style : CallStyle) {p : Parameter}
    (hp : ∀ t, p.schema = some t → ¬ t.Mentions name) :
    Call.pathValue style reg' p = Call.pathValue style reg p := by
  rw [Call.pathValue, Call.pathValue, h.isNumeric_eq hp]

theorem queryValue_eq (h : AgreesBeyond name reg reg') (style : CallStyle) {p : Parameter}
    (hp : ∀ t, p.schema = some t → ¬ t.Mentions name) :
    Call.queryValue style reg' p = Call.queryValue style reg p := by
  unfold Call.queryValue
  rw [h.isNumeric_eq hp, h.firstChoice?_eq hp]

theorem shownChoices_eq (h : AgreesBeyond name reg reg') {e : Endpoint} (he : e.Avoids name) :
    Call.shownChoices reg' e = Call.shownChoices reg e := by
  have hparameter {p : Parameter} (hp : p ∈ e.queryParameters.take Call.queryLimit) :=
    he p (List.mem_filter.1 (List.mem_of_mem_take hp)).1
  have hnumeric : (e.queryParameters.take Call.queryLimit).filter
      (fun p => !reg'.isNumeric p.schema) =
        (e.queryParameters.take Call.queryLimit).filter fun p => !reg.isNumeric p.schema :=
    List.filter_congr fun p hp => by rw [h.isNumeric_eq (hparameter hp)]
  rw [Call.shownChoices, Call.shownChoices, hnumeric]
  exact List.filterMap_congr fun p hp => h.firstChoice?_eq (hparameter (List.mem_filter.1 hp).1)

theorem bundle_congr {value value' : Parameter → String} {ps : List Parameter}
    (h : ∀ p ∈ ps, value' p = value p) : Call.bundle value' ps = Call.bundle value ps := by
  have hvalues : (ps.map fun p => Name.propertyKey p.name ++ ": " ++ value' p) =
      ps.map fun p => Name.propertyKey p.name ++ ": " ++ value p :=
    List.map_congr_left fun p hp => congrArg _ (h p hp)
  unfold Call.bundle
  rw [hvalues]

/-- The example call of an endpoint whose parameters do not mention the name is the same in both
registries. -/
theorem statement_eq (h : AgreesBeyond name reg reg') (style : CallStyle) {e : Endpoint}
    (he : e.Avoids name) : Call.statement style reg' e = Call.statement style reg e := by
  have hpath : Call.bundle (Call.pathValue style reg') e.pathParameters =
      Call.bundle (Call.pathValue style reg) e.pathParameters :=
    bundle_congr fun p hp => h.pathValue_eq style (he p (List.mem_filter.1 hp).1)
  have hquery : Call.bundle (Call.queryValue style reg') (e.queryParameters.take Call.queryLimit) =
      Call.bundle (Call.queryValue style reg) (e.queryParameters.take Call.queryLimit) :=
    bundle_congr fun p hp =>
      h.queryValue_eq style (he p (List.mem_filter.1 (List.mem_of_mem_take hp)).1)
  have harguments : Call.arguments style reg' e = Call.arguments style reg e := by
    unfold Call.arguments
    rw [hpath, hquery]
  unfold Call.statement
  rw [harguments]

/-! ## Files -/

theorem methodText_eq (h : AgreesBeyond name reg reg') {e : Endpoint} (he : e.Avoids name)
    (level : Int) : Method.text reg' e level = Method.text reg e level := by
  have hcomment : DocComment.text reg' e level = DocComment.text reg e level := by
    simp only [DocComment.text, DocComment.lines, DocComment.example_, h.statement_eq _ he]
  simp only [Method.text, hcomment, Method.code_eq reg, Method.code_eq reg']

theorem exampleText_eq (h : AgreesBeyond name reg reg') {endpoints : List Endpoint}
    (he : ∀ e ∈ endpoints, e.Avoids name) (className modulePath baseUrl : String) :
    ExampleFile.text reg' endpoints className modulePath baseUrl =
      ExampleFile.text reg endpoints className modulePath baseUrl := by
  have hexamples : (endpoints.take ExampleFile.endpointLimit).map
      (fun e => ExampleFile.exampleText reg' e 2) =
        (endpoints.take ExampleFile.endpointLimit).map
          fun e => ExampleFile.exampleText reg e 2 := by
    refine List.map_congr_left fun e hmem => ?_
    simp only [ExampleFile.exampleText, ExampleFile.exampleLines,
      h.statement_eq _ (he e (List.mem_of_mem_take hmem))]
  unfold ExampleFile.text
  rw [hexamples]

theorem exampleFile_eq (h : AgreesBeyond name reg reg') {endpoints : List Endpoint}
    (he : ∀ e ∈ endpoints, e.Avoids name) (doc doc' : Document) (title baseUrl : String)
    (sourceUrl : Option String) (clientFile : String) :
    Description.exampleFile ⟨doc', title, baseUrl, sourceUrl, reg'⟩ endpoints clientFile =
      Description.exampleFile ⟨doc, title, baseUrl, sourceUrl, reg⟩ endpoints clientFile := by
  have hname : Interface.className ⟨title, baseUrl, sourceUrl, reg'⟩ =
      Interface.className ⟨title, baseUrl, sourceUrl, reg⟩ := rfl
  simp only [Description.exampleFile, hname, h.exampleText_eq he]

theorem clientClass_eq (h : AgreesBeyond name reg reg') {endpoints : List Endpoint}
    (he : ∀ e ∈ endpoints, e.Avoids name) (title baseUrl : String) (sourceUrl : Option String)
    (level : Int) :
    (Interface.mk title baseUrl sourceUrl reg').clientClass endpoints level =
      (Interface.mk title baseUrl sourceUrl reg).clientClass endpoints level := by
  have hmethods : (Interface.mk title baseUrl sourceUrl reg').methods endpoints (level + 1) =
      (Interface.mk title baseUrl sourceUrl reg).methods endpoints (level + 1) :=
    mapM_eq_of_forall₂ (List.forall₂_same.2 fun e hmem => h.methodText_eq (he e hmem) (level + 1))
  unfold Interface.clientClass
  rw [hmethods, Signature.literals_eq reg, Signature.literals_eq reg']
  rfl

/-- What the files show of the endpoints is the same. -/
theorem showsChoice_cases (h : AgreesBeyond name reg reg') {endpoints : List Endpoint}
    (he : ∀ e ∈ endpoints, e.Avoids name) {options : Options} {v : Value}
    (hv : ShowsChoice reg' endpoints options v) :
    (∃ e ∈ reg'.entries, v ∈ e.2.literals reg' [e.1]) ∨ ShowsChoice reg endpoints options v := by
  cases hv with
  | declaration hentry hv => exact .inl ⟨_, hentry, hv⟩
  | signature hmem hv =>
    rw [Signature.literals_eq, ← Signature.literals_eq reg] at hv
    exact .inr (.signature hmem hv)
  | call hexample hv =>
    obtain ⟨e, hmem, hv⟩ := List.mem_flatMap.1 hv
    rw [h.shownChoices_eq (he e (List.mem_of_mem_take hmem))] at hv
    exact .inr (.call hexample (List.mem_flatMap.2 ⟨e, hmem, hv⟩))

end Registry.AgreesBeyond

/-! ## The registry with the new schema -/

namespace Registry

variable {name : String} {reg reg' : Registry} {s : Schema} {position : Nat}

theorem agreesBeyond_of_insert
    (hentries : reg'.entries = reg.entries.take position ++ (name, s) :: reg.entries.drop position)
    (h : ∀ e ∈ reg.entries, ¬ e.2.Mentions name) : AgreesBeyond name reg reg' where
  unmentioned := h
  lookup other hother := by
    have hnew : decide (name = other) = false := by simpa using hother.symm
    rw [lookup?, lookup?, hentries]
    conv_rhs => rw [← List.take_append_drop position reg.entries]
    simp only [Assoc.find?, List.find?_append, List.find?_cons, hnew]

end Registry

namespace Interface

/-- The declarations of named schemas as they stand in a file. -/
def blocks (reg : Registry) (entries : List (String × Schema)) : String :=
  String.join (entries.map fun e => expandTabs (declaration reg e.1 e.2))

theorem expandTabs_types_eq (i : Interface) :
    expandTabs i.types = "// Type definitions\n\n" ++ blocks i.registry i.registry.entries := by
  have hhead (text : String) : expandTabs ("// Type definitions\n\n" ++ text) =
      "// Type definitions\n\n" ++ expandTabs text := expandTabs_append_of_notMem (by simp)
  have hblocks : expandTabs (String.join (i.registry.entries.map fun e =>
      declaration i.registry e.1 e.2)) = blocks i.registry i.registry.entries := by
    rw [expandTabs_join, List.map_map]
    rfl
  calc expandTabs i.types = _ := hhead _
    _ = _ := congrArg _ hblocks

theorem blocks_append (reg : Registry) (a b : List (String × Schema)) :
    blocks reg (a ++ b) = blocks reg a ++ blocks reg b := by
  rw [blocks, List.map_append, String.join_append]
  rfl

theorem blocks_congr {name : String} {reg reg' : Registry} (h : reg.AgreesBeyond name reg')
    {entries : List (String × Schema)} (hentries : entries ⊆ reg.entries) :
    blocks reg' entries = blocks reg entries := by
  refine congrArg String.join (List.map_congr_left fun e he => ?_)
  rw [expandTabs_declaration, expandTabs_declaration,
    h.typeText_eq (h.unmentioned e (hentries he))]

/-- The declarations with the one of the new schema between those before and after it. -/
theorem blocks_insert {name : String} {reg reg' : Registry} {s : Schema} {position : Nat}
    (hentries : reg'.entries = reg.entries.take position ++ (name, s) :: reg.entries.drop position)
    (h : reg.AgreesBeyond name reg') : blocks reg' reg'.entries =
      blocks reg (reg.entries.take position) ++
        ("export type " ++ expandTabs name ++ " = " ++ expandTabs (s.typeText reg' [name] 0) ++
          ";\n\n") ++
        blocks reg (reg.entries.drop position) := by
  have hblock : blocks reg' [(name, s)] = "export type " ++ expandTabs name ++ " = " ++
      expandTabs (s.typeText reg' [name] 0) ++ ";\n\n" := by
    rw [← expandTabs_declaration]
    simp [blocks]
  rw [hentries, ← List.singleton_append, blocks_append, blocks_append, hblock,
    blocks_congr h (List.take_subset _ _), blocks_congr h (List.drop_subset _ _)]
  exact String.append_assoc.symm

/-- The text of a client file around its declarations. -/
theorem text_clientFile_eq (i : Interface) (clientClass name : String) :
    (i.clientFile clientClass name).text = expandTabs i.header ++ "// Type definitions\n\n" ++
      blocks i.registry i.registry.entries ++
      (expandTabs clientClass ++ expandTabs i.exportLine) := by
  rw [text_clientFile, expandTabs_types_eq]
  simp only [String.append_assoc]

end Interface

/-! ## The project -/

/-- The choices that the declarations list are those of the old ones and those of the new one. -/
theorem Registry.AgreesBeyond.mem_literals_insert {name : String} {reg reg' : Registry} {s : Schema}
    {position : Nat} (h : reg.AgreesBeyond name reg')
    (hentries : reg'.entries = reg.entries.take position ++ (name, s) :: reg.entries.drop position)
    {v : Value} : (∃ e ∈ reg'.entries, v ∈ e.2.literals reg' [e.1]) ↔
      v ∈ s.literals reg' [name] ∨ ∃ e ∈ reg.entries, v ∈ e.2.literals reg [e.1] := by
  have hmiddle : reg'.entries.Perm ((name, s) :: reg.entries) := by
    rw [hentries]
    refine List.perm_middle.trans ?_
    rw [List.take_append_drop]
  have hold : (∃ e ∈ reg.entries, v ∈ e.2.literals reg' [e.1]) ↔
      ∃ e ∈ reg.entries, v ∈ e.2.literals reg [e.1] :=
    exists_congr fun e => and_congr_right fun he => by rw [h.literals_eq (h.unmentioned e he)]
  rw [← hold]
  simp only [hmiddle.mem_iff, List.mem_cons, or_and_right, exists_or, exists_eq_left]

/-- With the new schema a project is put together from the same endpoints and the same class, if the
choices that the new schema lists have texts. -/
theorem Yields.insertSchema {raw : Value} {options : Options} {doc : Document}
    {reg reg' : Registry} {found : Reported Endpoint} {clientClass : String}
    (h : Yields raw options doc reg found clientClass) (hdistinct : Distinct raw.schemaEntries)
    {name : String} (hname : name ∉ Assoc.names doc.schemas) {v : Value} {s : Schema}
    {position : Nat} (hreg' : (doc.withSchemas (doc.schemas.take position ++
      (name, v) :: doc.schemas.drop position)).registry = .ok reg')
    (hentries : reg'.entries = reg.entries.take position ++ (name, s) :: reg.entries.drop position)
    (hagree : reg.AgreesBeyond name reg') (hparameters : ∀ e ∈ found.items, e.Avoids name)
    (htexts : ∀ v ∈ s.literals reg' [name], v.hasText = true) :
    Yields (raw.insertSchema position name v) options
      (doc.withSchemas (doc.schemas.take position ++ (name, v) :: doc.schemas.drop position)) reg'
      found clientClass where
  document := Document.ofValue_insertSchema h.document hdistinct hname v position
  texts := (Document.readsTexts_insertSchema h.document _ _ _).trans h.texts
  registry := hreg'
  endpoints := (Document.endpoints_withSchemas doc _).trans h.endpoints
  clientClass := (hagree.clientClass_eq hparameters _ _ _ _).trans h.clientClass
  choices v hv := by
    rcases hagree.showsChoice_cases hparameters hv with hlisted | hshown
    · rcases (hagree.mem_literals_insert hentries).1 hlisted with hnew | ⟨e, he, hold⟩
      · exact htexts v hnew
      · exact h.choices v (.declaration he hold)
    · exact h.choices v hshown

/-- A schema under a new name that no other schema and no parameter mentions adds its declaration to
the client file, at its position among the declarations; all else of the project, and the notices,
are the same. Only if its declaration lists a choice without a text there is no project. -/
theorem generate_insertSchema {raw : Value} {options : Options} {project : Project}
    {notices : List Notice} {doc : Document} {reg : Registry} {found : Reported Endpoint}
    (hraw : generate raw options = .ok (project, notices)) (hdoc : Document.ofValue raw = .ok doc)
    (hreg : doc.registry = .ok reg) (hfound : doc.endpoints = .ok found)
    (hdistinct : Distinct raw.schemaEntries) {name : String}
    (hname : name ∉ Assoc.names doc.schemas) {v : Value} {s : Schema}
    (hs : Schema.ofValue v = .ok s) (hschemas : ∀ e ∈ reg.entries, ¬ e.2.Mentions name)
    (hparameters : ∀ e ∈ found.items, e.Avoids name) (position : Nat) :
    ∃ reg' client client' examples before after,
      reg'.entries = reg.entries.take position ++ (name, s) :: reg.entries.drop position ∧
      project.files = client :: examples ∧
      client.text = before ++ "// Type definitions\n\n" ++
        Interface.blocks reg (reg.entries.take position) ++
        Interface.blocks reg (reg.entries.drop position) ++ after ∧
      generate (raw.insertSchema position name v) options =
        (if (s.literals reg' [name]).all Value.hasText then
          .ok (⟨project.name, client' :: examples⟩, notices) else .error .noText) ∧
      client'.name = client.name ∧
      client'.text = before ++ "// Type definitions\n\n" ++
        Interface.blocks reg (reg.entries.take position) ++
        ("export type " ++ expandTabs name ++ " = " ++ expandTabs (s.typeText reg' [name] 0) ++
          ";\n\n") ++
        Interface.blocks reg (reg.entries.drop position) ++ after := by
  obtain ⟨_, _, _, clientClass, hyields, -⟩ := exists_yields hraw
  cases hyields.document.symm.trans hdoc
  cases hyields.registry.symm.trans hreg
  cases hyields.endpoints.symm.trans hfound
  cases hraw.symm.trans hyields.generate_eq
  obtain ⟨reg', hreg', hentries⟩ := Document.exists_registry_insert
    (Document.nodup_names_schemas hdoc) hreg hname hs position
  have hagree := Registry.agreesBeyond_of_insert hentries hschemas
  let i := doc.interface options.sourceUrl reg
  let i' := doc.interface options.sourceUrl reg'
  have hexample : Description.exampleFile ⟨doc.withSchemas (doc.schemas.take position ++
      (name, v) :: doc.schemas.drop position), i'⟩ found.items options.clientFile =
        Description.exampleFile ⟨doc, i⟩ found.items options.clientFile :=
    hagree.exampleFile_eq hparameters _ _ _ _ _ _
  refine ⟨reg', i.clientFile clientClass options.clientFile,
    i'.clientFile clientClass options.clientFile, _, expandTabs i.header,
    expandTabs clientClass ++ expandTabs i.exportLine, hentries, rfl, ?_, ?_, rfl, ?_⟩
  · have hsplit := Interface.blocks_append reg (reg.entries.take position)
      (reg.entries.drop position)
    rw [List.take_append_drop] at hsplit
    rw [Interface.text_clientFile_eq, show i.registry = reg from rfl, hsplit]
    simp only [String.append_assoc]
  · split
    · rename_i htexts
      have hyields' := hyields.insertSchema hdistinct hname hreg' hentries hagree hparameters
        (List.all_eq_true.1 htexts)
      refine hyields'.generate_eq.trans ?_
      exact congrArg (fun f => Except.ok (Project.mk i.className
        (i'.clientFile clientClass options.clientFile ::
          if options.includeExample then [f] else []), _)) hexample
    · rename_i htexts
      obtain ⟨choice, hchoice, hnone⟩ := List.all_eq_false.1 (Bool.eq_false_iff.2 htexts)
      obtain ⟨e, he, hlisted⟩ := (hagree.mem_literals_insert hentries).2 (.inl hchoice)
      exact generate_eq_noText (Document.ofValue_insertSchema hdoc hdistinct hname v position)
        ((Document.readsTexts_insertSchema hdoc _ _ _).trans hyields.texts) hreg'
        ((Document.endpoints_withSchemas doc _).trans hfound) options
        ⟨choice, List.mem_flatMap.2 ⟨e, he, hlisted⟩, Bool.eq_false_iff.2 hnone⟩
  · rw [Interface.text_clientFile_eq, show i'.registry = reg' from rfl,
      Interface.blocks_insert hentries hagree]
    simp only [String.append_assoc]
    rfl

/-- An array of its own kind. -/
def toyValue : Value :=
  .map [(.text "type", .text "array"),
    (.text "items", .map [(.text "$ref", .text "#/components/schemas/Toy")])]

theorem ofValue_toyValue :
    Schema.ofValue toyValue = .ok (.array (.reference "#/components/schemas/Toy")) := by
  rw [toyValue, Schema.ofValue_array, Schema.ofValue_reference]
  rfl

/-- The type of the array where it is declared, and the choices that it lists. -/
theorem shown_toy (reg : Registry) : let toy := Schema.array (.reference "#/components/schemas/Toy")
    toy.typeText reg ["Toy"] 0 = "Array<Toy>" ∧ toy.literals reg ["Toy"] = [] := by
  have hvisited : Place.target? reg ["Toy"] "#/components/schemas/Toy" = none :=
    Place.target?_eq_none.2 (.inl (by decide))
  constructor
  · rw [Schema.typeText, TypeExpr.ofSchema, Place.target?_of_type_reference hvisited]
    decide
  · rw [Schema.literals, Schema.literals_reference, hvisited]

theorem petsEndpoint_avoids_toy : ∀ e ∈ [petsEndpoint], e.Avoids "Toy" := by
  rw [List.forall_mem_singleton]
  intro p hp s hs
  rw [List.mem_singleton.1 hp] at hs
  cases hs
  rintro ⟨ref, hpart, href⟩
  cases hpart with
  | self => exact absurd href (by decide)
  | child hchild => cases hchild

/-- A new schema that mentions itself, before one that a parameter and a response mention. -/
theorem generate_insertSchema_toy :
    let pet : Value := .map [(.text "type", .text "integer")]
    ∃ project notices client client' examples before after,
      generate (petsValue [(.text "Pet", pet)]) .default = .ok (project, notices) ∧
      project.files = client :: examples ∧
      client.text =
        before ++ "// Type definitions\n\n" ++ "export type Pet = number;\n\n" ++ after ∧
      generate (petsValue [(.text "Toy", toyValue), (.text "Pet", pet)]) .default =
        .ok (⟨project.name, client' :: examples⟩, notices) ∧
      client'.text = before ++ "// Type definitions\n\n" ++ "export type Toy = Array<Toy>;\n\n" ++
        "export type Pet = number;\n\n" ++ after := by
  intro pet
  have hdoc : Document.ofValue (petsValue [(.text "Pet", pet)]) =
      .ok (petsDocument [("Pet", pet)]) := rfl
  have hschemas : (petsDocument [("Pet", pet)]).schemas = [("Pet", pet)] := rfl
  obtain ⟨reg, hreg, hreg_entries, hbare⟩ := Document.exists_registry_primitive .integer hschemas
  obtain ⟨⟨project, notices⟩, hp⟩ := exists_generate_pets hdoc (by decide) hreg hbare
  have hunmentioned : ∀ e ∈ reg.entries, ¬ e.2.Mentions "Toy" := by
    rw [hreg_entries]
    rintro _ hmem ⟨ref, hpart, -⟩
    cases List.mem_singleton.1 hmem
    cases hpart with
    | child hchild => cases hchild
  have hdistinct : Distinct (petsValue [(.text "Pet", pet)]).schemaEntries := by
    have hentry : (petsValue [(.text "Pet", pet)]).schemaEntries = [(.text "Pet", pet)] := rfl
    simp [hentry, Distinct]
  obtain ⟨reg', client, client', examples, before, after, -, hfiles, htext, hgen, -, htext'⟩ :=
    generate_insertSchema hp hdoc hreg (petsDocument_endpoints _) hdistinct (by decide)
      ofValue_toyValue hunmentioned petsEndpoint_avoids_toy 0
  have hnumber (q : Primitive) (hq : q.kind = .integer) :
      Schema.typeText reg ["Pet"] 0 (.primitive q) = "number" := by
    simp [Schema.typeText, TypeExpr.ofSchema, TypeExpr.ofPrimitive, TypeExpr.render, hq]
  have hpets : Interface.blocks reg (reg.entries.drop 0) = "export type Pet = number;\n\n" := by
    rw [List.drop_zero, hreg_entries, Interface.blocks, List.map_singleton,
      Interface.expandTabs_declaration, hnumber _ rfl]
    rfl
  obtain ⟨htoy, hchoices⟩ := shown_toy reg'
  rw [hchoices] at hgen
  have hnone : Interface.blocks reg (reg.entries.take 0) = "" := rfl
  rw [hnone, hpets, String.append_empty] at htext
  rw [hnone, hpets, htoy, String.append_empty] at htext'
  exact ⟨project, notices, client, client', examples, before, after, hp, hfiles, htext, hgen,
    htext'⟩

end TypedClient
