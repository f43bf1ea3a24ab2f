import TypedClient.Proofs.Failure.Generation
import TypedClient.Proofs.Failure.Variant

/-!
# What a project is put together from

A value gives a project only by way of its document, the registry of the named schemas, and the
endpoints; the client class is written from these, and the files follow (`Yields`). The numbers that
stand for texts in the document have texts then, and so do the choices that the files show. Whatever
is known of a generated project is known of these parts.
-/

namespace TypedClient

/-- What the client file of a document is written from. -/
def Document.interface (doc : Document) (sourceUrl : Option String) (reg : Registry) : Interface :=
  ⟨doc.info.title, doc.baseUrl, sourceUrl, reg⟩

/-- The parts from which the project for a value is put together. -/
structure Yields (raw : Value) (options : Options) (doc : Document) (reg : Registry)
    (found : Reported Endpoint) (clientClass : String) : Prop where
  document : Document.ofValue raw = .ok doc
  texts : Document.readsTexts raw = true
  registry : doc.registry = .ok reg
  endpoints : doc.endpoints = .ok found
  clientClass : (doc.interface options.sourceUrl reg).clientClass found.items 0 = .ok clientClass
  choices : ∀ v, ShowsChoice reg found.items options v → v.hasText = true

/-- The names of the registry are those under which the document has schemas. -/
theorem Document.mem_names_registry {doc : Document} {reg : Registry} (h : doc.registry = .ok reg)
    {name : String} : name ∈ reg.names ↔ name ∈ Assoc.names doc.schemas := by
  obtain ⟨schemas, hschemas, rfl⟩ := exists_of_map_eq_ok (mapError_eq_ok.1 h)
  rw [Schema.ofMembers_eq_mapM] at hschemas
  have hlength := length_of_mapM_eq_ok hschemas
  rw [List.length_map] at hlength
  have hnames : Assoc.names ((doc.schemas.map (·.1)).zip schemas) = Assoc.names doc.schemas := by
    rw [Assoc.names, List.map_fst_zip (by simp [hlength])]
    rfl
  rw [← hnames]
  exact Assoc.mem_names_ofPairs

namespace Description

theorem ofValue_eq_ok {raw : Value} {sourceUrl : Option String} {d : Description}
    (h : ofValue raw sourceUrl = .ok d) : ∃ doc reg, validated raw = .ok doc ∧
      doc.registry = .ok reg ∧ d = ⟨doc, doc.interface sourceUrl reg⟩ := by
  obtain ⟨doc, hdoc, h⟩ := exists_of_bind_eq_ok h
  obtain ⟨reg, hreg, h⟩ := exists_of_bind_eq_ok h
  exact ⟨doc, reg, hdoc, mapError_eq_ok.1 hreg, (Except.ok.inj h).symm⟩

end Description

/-- The client file that is put together from an interface and the text of the class. -/
def Interface.clientFile (i : Interface) (clientClass name : String) : CodeFile :=
  ⟨name, [⟨0, i.header⟩, ⟨1, i.types⟩, ⟨2, clientClass⟩, ⟨3, i.exportLine⟩]⟩

/-- The client class is written if the choices in the signatures have texts and the methods are
written. -/
theorem Interface.clientClass_eq_ok {i : Interface} {endpoints : List Endpoint} {level : Int}
    {text : String} : i.clientClass endpoints level = .ok text ↔
      (∀ e ∈ endpoints, ∀ v ∈ Signature.literals i.registry e, v.hasText = true) ∧
      ∃ methods, i.methods endpoints (level + 1) = .ok methods ∧
        i.classText methods level = text := by
  have htexts : Value.requireTexts ClassFault.noText
      (endpoints.flatMap (Signature.literals i.registry)) = .ok () ↔
      ∀ e ∈ endpoints, ∀ v ∈ Signature.literals i.registry e, v.hasText = true := by
    rw [Value.requireTexts_eq_ok, List.forall_mem_flatMap]
  rw [← htexts, clientClass]
  constructor
  · intro h
    obtain ⟨_, hliterals, h⟩ := exists_of_bind_eq_ok h
    obtain ⟨methods, hmethods, h⟩ := exists_of_bind_eq_ok h
    exact ⟨hliterals, methods, mapError_eq_ok.1 hmethods, Except.ok.inj h⟩
  · rintro ⟨hliterals, methods, hmethods, rfl⟩
    rw [hliterals, hmethods]
    rfl

/-- A generated project comes from its parts; its first file is the client file. -/
theorem exists_yields {raw : Value} {options : Options} {project : Project}
    {notices : List Notice} (h : generate raw options = .ok (project, notices)) :
    ∃ doc reg found clientClass, Yields raw options doc reg found clientClass ∧
      project.files.head? = some
        ((doc.interface options.sourceUrl reg).clientFile clientClass options.clientFile) := by
  obtain ⟨d, hd, h⟩ := exists_of_bind_eq_ok h
  obtain ⟨doc, reg, hdoc, hreg, rfl⟩ := Description.ofValue_eq_ok hd
  obtain ⟨found, hfound, h⟩ := exists_of_bind_eq_ok h
  obtain ⟨client, hclient, h⟩ := exists_of_bind_eq_ok h
  obtain ⟨examples, hexamples, h⟩ := exists_of_bind_eq_ok h
  obtain ⟨htexts, hvalid⟩ := Description.validated_eq_ok.1 hdoc
  have hchoices : ∀ v, ShowsChoice reg found.items options v → v.hasText = true := by
    intro v hv
    by_contra hnone
    have hshown := Bool.eq_false_iff.2 hnone
    rcases (fails_files ⟨doc, doc.interface options.sourceUrl reg⟩ found.items options).2
      (.inr ⟨v, hv, hshown⟩) with hfails | hfails
    · exact not_fails_ok _ (hclient ▸ hfails)
    · exact not_fails_ok _ (hexamples ▸ hfails)
  obtain ⟨-, -, hclient⟩ := exists_of_bind_eq_ok hclient
  obtain ⟨clientClass, hclass, hfile⟩ := exists_of_bind_eq_ok hclient
  cases h
  exact ⟨doc, reg, found, clientClass,
    ⟨hvalid, htexts, hreg, mapError_eq_ok.1 hfound, mapError_eq_ok.1 hclass, hchoices⟩,
    congrArg some (Except.ok.inj hfile).symm⟩

/-- Once the document has been read the files are written. -/
theorem generate_of_parts {raw : Value} {doc : Document} {reg : Registry}
    {found : Reported Endpoint} (hdoc : Document.ofValue raw = .ok doc)
    (htexts : Document.readsTexts raw = true) (hreg : doc.registry = .ok reg)
    (hfound : doc.endpoints = .ok found) (options : Options) :
    let d : Description := ⟨doc, doc.interface options.sourceUrl reg⟩
    generate raw options = (do
      let client ← d.clientFile found.items options.clientFile
      let examples ← d.examples found.items options
      return (⟨d.interface.className, client :: examples⟩,
        found.notices ++ Interface.repeatedMethods [] found.items)) := by
  intro d
  have hd : Description.ofValue raw options.sourceUrl = .ok d := by
    rw [Description.ofValue, Description.validated_eq_ok.2 ⟨htexts, hdoc⟩]
    show (doc.registry.mapError _ >>= _) = _
    rw [hreg]
    rfl
  have hendpoints : d.endpoints = .ok found := by
    show doc.endpoints.mapError _ = _
    rw [hfound]
    rfl
  rw [generate, hd]
  show Description.project _ options = _
  rw [Description.project, hendpoints]
  rfl

/-- No project is put together if a declaration lists a choice without a text. -/
theorem generate_eq_noText {raw : Value} {doc : Document} {reg : Registry}
    {found : Reported Endpoint} (hdoc : Document.ofValue raw = .ok doc)
    (htexts : Document.readsTexts raw = true) (hreg : doc.registry = .ok reg)
    (hfound : doc.endpoints = .ok found) (options : Options)
    (hchoice : ∃ v ∈ (doc.interface options.sourceUrl reg).literals, v.hasText = false) :
    generate raw options = .error .noText := by
  have hliterals : Value.requireTexts GenerationFault.noText
      (doc.interface options.sourceUrl reg).literals = .error .noText := by
    obtain ⟨v, hv, hnone⟩ := hchoice
    rw [Value.requireTexts, if_neg fun hall => ?_]
    exact Bool.eq_false_iff.1 hnone (List.all_eq_true.1 hall v hv)
  rw [generate_of_parts hdoc htexts hreg hfound, Description.clientFile, hliterals]
  rfl

/-- The project that is put together from its parts. -/
theorem Yields.generate_eq {raw : Value} {options : Options} {doc : Document} {reg : Registry}
    {found : Reported Endpoint} {clientClass : String}
    (h : Yields raw options doc reg found clientClass) :
    generate raw options = .ok
      (⟨(doc.interface options.sourceUrl reg).className,
        (doc.interface options.sourceUrl reg).clientFile clientClass options.clientFile ::
          if options.includeExample then [Description.exampleFile
            ⟨doc, doc.interface options.sourceUrl reg⟩ found.items options.clientFile] else []⟩,
        found.notices ++ Interface.repeatedMethods [] found.items) := by
  have hliterals : Value.requireTexts GenerationFault.noText
      (doc.interface options.sourceUrl reg).literals = .ok () := by
    refine Value.requireTexts_eq_ok.2 fun v hv => ?_
    obtain ⟨e, he, hv⟩ := List.mem_flatMap.1 hv
    exact h.choices v (.declaration he hv)
  have hfile : Description.clientFile ⟨doc, doc.interface options.sourceUrl reg⟩ found.items
      options.clientFile = .ok ((doc.interface options.sourceUrl reg).clientFile clientClass
        options.clientFile) := by
    rw [Description.clientFile, hliterals, h.clientClass]
    rfl
  have hexamples : Description.examples ⟨doc, doc.interface options.sourceUrl reg⟩ found.items
      options = .ok (if options.includeExample then [Description.exampleFile
        ⟨doc, doc.interface options.sourceUrl reg⟩ found.items options.clientFile] else []) := by
    unfold Description.examples
    split
    · rename_i hexample
      have hcalls : Value.requireTexts GenerationFault.noText
          (ExampleFile.shownChoices reg found.items) = .ok () :=
        Value.requireTexts_eq_ok.2 fun v hv => h.choices v (.call hexample hv)
      show (Value.requireTexts _ (ExampleFile.shownChoices reg found.items) >>= _) = _
      rw [hcalls]
      rfl
    · rfl
  rw [generate_of_parts h.document h.texts h.registry h.endpoints, hfile]
  show (Description.examples _ _ _ >>= _) = _
  rw [hexamples]
  rfl

/-- A document that can be read gives a project if the codes of its responses can be read and the
choices that are shown have texts. -/
theorem exists_generate_eq_ok {raw : Value} {doc : Document} {reg : Registry}
    {found : Reported Endpoint} {options : Options} (hdoc : Document.ofValue raw = .ok doc)
    (htexts : Document.readsTexts raw = true) (hreg : doc.registry = .ok reg)
    (hfound : doc.endpoints = .ok found)
    (hcodes : ∀ e ∈ found.items, ∀ code ∈ Assoc.names e.responses, ¬ NoNumeral code)
    (hchoices : ∀ v, ShowsChoice reg found.items options v → v.hasText = true) :
    ∃ p, generate raw options = .ok p := by
  refine exists_of_not_fails fun hfails => ?_
  rw [fails_generate (Description.validated_eq_ok.2 ⟨htexts, hdoc⟩), hreg, hfound] at hfails
  rcases hfails with h | h | ⟨operation, hoperation, code, hcode, h⟩ |
    ⟨reg', found', v, hreg', hfound', hv, h⟩
  · exact not_fails_ok _ h
  · exact not_fails_ok _ h
  · obtain ⟨e, he, hmem⟩ := (Document.exists_endpoint_code hfound).2 ⟨operation, hoperation, hcode⟩
    exact hcodes e he code hmem h
  · cases hreg'
    cases hfound'
    rw [hchoices v hv] at h
    cases h

/-! ## Schemas that show no choice -/

/-- A registry of schemas without parts and without choices. -/
def Registry.IsBare (reg : Registry) : Prop :=
  ∀ e ∈ reg.entries, ∃ p : Primitive, e.2 = .primitive p ∧ p.choices = none

namespace Registry.IsBare

variable {reg : Registry}

theorem of_entries_eq_nil (h : reg.entries = []) : reg.IsBare := by
  rw [IsBare, h]
  exact List.forall_mem_nil _

theorem literals_eq_nil (h : reg.IsBare) {e : String × Schema} (he : e ∈ reg.entries) :
    e.2.literals reg [e.1] = [] := by
  obtain ⟨p, hp, hnone⟩ := h e he
  rw [hp, Schema.literals, Primitive.literals, hnone]
  cases p.kind <;> rfl

theorem firstChoice?_reference (h : reg.IsBare) (ref : String) :
    reg.firstChoice? (some (.reference ref)) = none := by
  rw [firstChoice?, Option.map_some, resolve]
  rcases hfound : reg.lookup? (Reference.name ref) with _ | s
  · rfl
  · obtain ⟨p, rfl, hnone⟩ := h _ (Assoc.mem_of_find? hfound)
    rw [Option.getD_some]
    simp only [hnone]

/-- Then nothing is shown but the choices of the schemas at the endpoints. -/
theorem not_showsChoice (h : reg.IsBare) {endpoints : List Endpoint}
    (hschemas : ∀ e ∈ endpoints, ∀ s ∈ Signature.schemas e,
      s.literals reg reg.names = [] ∧ reg.firstChoice? (some s) = none)
    {options : Options} {v : Value} : ¬ ShowsChoice reg endpoints options v := by
  rintro (⟨he, hv⟩ | ⟨he, hv⟩ | ⟨-, hv⟩)
  · rw [h.literals_eq_nil he] at hv
    cases hv
  · obtain ⟨s, hs, hv⟩ := List.mem_flatMap.1 hv
    rw [(hschemas _ he s hs).1] at hv
    cases hv
  · obtain ⟨e, he, hv⟩ := List.mem_flatMap.1 hv
    obtain ⟨p, hp, hchoice⟩ := List.mem_filterMap.1 hv
    have hquery : p ∈ e.queryParameters := List.mem_of_mem_take (List.mem_filter.1 hp).1
    rcases hschema : p.schema with _ | s
    · rw [hschema] at hchoice
      cases hchoice
    · have hs : s ∈ Signature.schemas e := List.mem_append_left _ (List.mem_append_left _
        (List.mem_filterMap.2 ⟨p, List.mem_append_right _ hquery, hschema⟩))
      rw [hschema, (hschemas e (List.mem_of_mem_take he) s hs).2] at hchoice
      cases hchoice

end Registry.IsBare

theorem Document.exists_registry_primitive {doc : Document} {name : String} (kind : PrimitiveKind)
    (h : doc.schemas = [(name, .map [(.text "type", .text kind.keyword)])]) :
    ∃ reg, doc.registry = .ok reg ∧
      reg.entries = [(name, .primitive ⟨kind, none, .null, none, none⟩)] ∧ reg.IsBare := by
  have hread : (doc.schemas.map (·.2)).mapM Schema.ofValue =
      .ok [.primitive ⟨kind, none, .null, none, none⟩] := by
    rw [h]
    exact mapM_singleton_eq_ok (Schema.ofValue_primitive kind)
  have hreg := doc.registry_eq_ok hread
  rw [h] at hreg
  exact ⟨_, hreg, rfl, List.forall_mem_singleton.2 ⟨_, rfl, rfl⟩⟩

end TypedClient
