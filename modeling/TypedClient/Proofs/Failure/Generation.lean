import TypedClient.Proofs.Failure.Extraction
import TypedClient.Client.Generation

/-!
# Documents without a client

A document that has been validated gets no client if one of its schemas is refused, if the value
given for parameters somewhere has no items, if a media type is no text, if the code of a response
consists of digits that form no numeral, or if a text is taken of a value that has none, and for no
other reason (`fails_generate_iff`). Texts are taken while the document is read, and of the choices
that the files show (`ShowsChoice`). The codes are read last, from the endpoints; these have the
codes of the operations that they were made from (`exists_endpoint_code`).
-/

namespace TypedClient

open Schema Extraction

/-- A code of digits that is no numeral. -/
def NoNumeral (code : String) : Prop :=
  Text.isDigits code = true ∧ Text.numeralValue? code = none

/-- The text of a key among the responses of an operation. -/
def ResponseCode (operation : List (Value × Value)) (code : String) : Prop :=
  ∃ responses, Value.get operation "responses" = .map responses ∧
    ∃ e ∈ responses, e.1.display = code

theorem fails_statusOf (code : String) : Fails (Signature.statusOf code) ↔ NoNumeral code := by
  unfold Signature.statusOf NoNumeral
  split
  · rename_i h
    split
    · rename_i hvalue
      simp [hvalue]
    · rename_i hvalue
      simp [h, hvalue]
  · rename_i h
    simp [h]

/-- A choice that the files of a client show: in a declaration, in the signature of a method, or in
a call of the example file. -/
inductive ShowsChoice (reg : Registry) (endpoints : List Endpoint) (options : Options) :
    Value → Prop
  | declaration {e : String × Schema} {v : Value} : e ∈ reg.entries →
    v ∈ e.2.literals reg [e.1] → ShowsChoice reg endpoints options v
  | signature {e : Endpoint} {v : Value} : e ∈ endpoints → v ∈ Signature.literals reg e →
    ShowsChoice reg endpoints options v
  | call {v : Value} : options.includeExample = true →
    v ∈ ExampleFile.shownChoices reg endpoints → ShowsChoice reg endpoints options v

theorem Interface.fails_clientClass (i : Interface) (endpoints : List Endpoint) (level : Int) :
    Fails (i.clientClass endpoints level) ↔
      (∃ e ∈ endpoints, ∃ v ∈ Signature.literals i.registry e, v.hasText = false) ∨
      ∃ e ∈ endpoints, ∃ code ∈ Assoc.names e.responses, NoNumeral code := by
  have hmethods : Fails ((i.methods endpoints (level + 1)).mapError ClassFault.status) ↔
      ∃ e ∈ endpoints, ∃ code ∈ Assoc.names e.responses, NoNumeral code := by
    rw [fails_mapError, methods, fails_mapM]
    simp only [Method.text, fails_map, Signature.errorType, fails_bind_pure, Signature.errorCodes,
      fails_mapM, fails_statusOf]
  have hliterals : Fails (Value.requireTexts ClassFault.noText
      (endpoints.flatMap (Signature.literals i.registry))) ↔
      ∃ e ∈ endpoints, ∃ v ∈ Signature.literals i.registry e, v.hasText = false := by
    rw [Value.fails_requireTexts]
    constructor
    · rintro ⟨v, hmem, h⟩
      obtain ⟨e, he, hv⟩ := List.mem_flatMap.1 hmem
      exact ⟨e, he, v, hv, h⟩
    · rintro ⟨e, he, v, hv, h⟩
      exact ⟨v, List.mem_flatMap.2 ⟨e, he, hv⟩, h⟩
  rw [clientClass, fails_bind_of fun _ _ => fails_bind_pure, hliterals, hmethods]

theorem Interface.exists_literals (i : Interface) {P : Value → Prop} :
    (∃ v ∈ i.literals, P v) ↔
      ∃ e ∈ i.registry.entries, ∃ v ∈ e.2.literals i.registry [e.1], P v := by
  simp only [literals, List.mem_flatMap]
  exact ⟨fun ⟨v, ⟨e, he, hv⟩, h⟩ => ⟨e, he, v, hv, h⟩,
    fun ⟨e, he, v, hv, h⟩ => ⟨v, ⟨e, he, hv⟩, h⟩⟩

theorem fails_clientFile (d : Description) (endpoints : List Endpoint) (name : String) :
    Fails (d.clientFile endpoints name) ↔
      (∃ v ∈ d.interface.literals, v.hasText = false) ∨
      (∃ e ∈ endpoints, ∃ v ∈ Signature.literals d.interface.registry e, v.hasText = false) ∨
      ∃ e ∈ endpoints, ∃ code ∈ Assoc.names e.responses, NoNumeral code := by
  rw [Description.clientFile, fails_bind_of fun _ _ => fails_bind_pure, Value.fails_requireTexts,
    fails_mapError, Interface.fails_clientClass]

theorem fails_examples (d : Description) (endpoints : List Endpoint) (options : Options) :
    Fails (d.examples endpoints options) ↔ options.includeExample = true ∧
      ∃ v ∈ ExampleFile.shownChoices d.interface.registry endpoints, v.hasText = false := by
  unfold Description.examples
  split
  · rename_i h
    rw [fails_bind_pure, Value.fails_requireTexts]
    simp only [h, true_and]
  · rename_i h
    simp [h]

theorem Description.validated_eq_ok {raw : Value} {doc : Document} :
    validated raw = .ok doc ↔
      Document.readsTexts raw = true ∧ Document.ofValue raw = .ok doc := by
  unfold validated
  split
  · rename_i h
    rw [mapError_eq_ok]
    simp only [h, true_and]
  · rename_i h
    simp [h]

namespace Extraction

variable {parameters : List (String × Value)}

theorem mem_names_readResponses {raw : Value} {responses : List (String × Response)}
    (h : readResponses raw = .ok responses) {code : String} :
    code ∈ Assoc.names responses ↔ ∃ e ∈ Form.entriesOf raw, e.1.display = code := by
  rw [readResponses_eq] at h
  obtain ⟨pairs, hpairs, h⟩ := exists_of_bind_eq_ok h
  cases h
  have hname : ∀ (e : Value × Value) (r : String × Response),
      readCoded e = .ok r → (r.1 = code ↔ e.1.display = code) := by
    intro e r hr
    rw [(readCoded_eq_ok hr).2.1]
  rw [Assoc.mem_names_ofPairs, Assoc.names, List.mem_map]
  exact exists_mem_of_mapM hname hpairs

theorem exists_mem_joined {α : Type} {P : α → Prop} : ∀ reports : List (Reported α),
    (∃ a ∈ (joined reports).items, P a) ↔ ∃ r ∈ reports, ∃ a ∈ r.items, P a
  | [] => by simp [joined]
  | r :: reports => by
    have hcons : (joined (r :: reports)).items = r.items ++ (joined reports).items := rfl
    simp only [hcons, List.mem_append, or_and_right, exists_or, exists_mem_joined reports,
      List.mem_cons, exists_eq_left]

theorem exists_code_readOperation {path : String} {shared : List Parameter} {verb : Verb}
    {operation : List (Value × Value)} {r : Reported Endpoint}
    (h : readOperation parameters path shared verb operation = .ok r) {code : String} :
    (∃ e ∈ r.items, code ∈ Assoc.names e.responses) ↔ ResponseCode operation code := by
  obtain ⟨own, body, responses, -, -, hresponses, rfl⟩ := exists_of_readOperation_eq_ok h
  simp only [endpointOf, List.mem_singleton, exists_eq_left, mem_names_readResponses hresponses,
    ResponseCode]
  cases Value.get operation "responses" <;> simp [Form.entriesOf]

theorem exists_code_readPath {path : String} {fields : List (String × Value)}
    {r : Reported Endpoint} (h : readPath parameters path fields = .ok r) {code : String} :
    (∃ e ∈ r.items, code ∈ Assoc.names e.responses) ↔
      ∃ o ∈ operations fields, ResponseCode o.2 code := by
  obtain ⟨shared, -, h⟩ := exists_of_bind_eq_ok h
  obtain ⟨reports, hreports, h⟩ := exists_of_bind_eq_ok h
  cases h
  rw [← exists_mem_of_mapM (fun o r hr => exists_code_readOperation hr) hreports]
  exact exists_mem_joined reports

end Extraction

namespace Document

variable {doc : Document}

/-- The endpoints have the codes of the operations. -/
theorem exists_endpoint_code {found : Reported Endpoint} (h : doc.endpoints = .ok found)
    {code : String} : (∃ e ∈ found.items, code ∈ Assoc.names e.responses) ↔
      ∃ operation, doc.Operates operation ∧ ResponseCode operation code := by
  obtain ⟨reports, hreports, h⟩ := exists_of_bind_eq_ok h
  cases h
  rw [exists_mem_joined, exists_mem_of_mapM (fun p r hr => exists_code_readPath hr) hreports]
  simp only [Extraction.mem_operations]
  constructor
  · rintro ⟨p, hp, o, ho, hcode⟩
    exact ⟨o.2, ⟨p, hp, o.1, ho⟩, hcode⟩
  · rintro ⟨operation, ⟨p, hp, verb, ho⟩, hcode⟩
    exact ⟨p, hp, (verb, operation), ho, hcode⟩

/-- The schemas that are refused stand under a name, in parameters or in a content. -/
theorem exists_refused_schemaAt (doc : Document) :
    (∃ schema, doc.SchemaAt schema ∧ Refused schema) ↔ (∃ e ∈ doc.schemas, Refused e.2) ∨
    (∃ raw, doc.ParametersAt raw ∧
      ∃ schema, ParameterSchema doc.parameters raw schema ∧ Refused schema) ∨
    ∃ content, doc.ContentAt content ∧ ∃ schema, MediaSchema content schema ∧ Refused schema := by
  constructor
  · rintro ⟨_, hat, h⟩
    cases hat with
    | named he => exact .inl ⟨_, he, h⟩
    | parameter hraw hschema => exact .inr (.inl ⟨_, hraw, _, hschema, h⟩)
    | content hcontent hschema => exact .inr (.inr ⟨_, hcontent, _, hschema, h⟩)
  · rintro (⟨e, he, h⟩ | ⟨raw, hraw, schema, hschema, h⟩ | ⟨content, hcontent, schema, hschema, h⟩)
    · exact ⟨_, .named he, h⟩
    · exact ⟨_, .parameter hraw hschema, h⟩
    · exact ⟨_, .content hcontent hschema, h⟩

end Document

/-- The files cannot be written for a code or for a choice that they show. -/
theorem fails_files (d : Description) (endpoints : List Endpoint) (options : Options) :
    (Fails (d.clientFile endpoints options.clientFile) ∨ Fails (d.examples endpoints options)) ↔
      (∃ e ∈ endpoints, ∃ code ∈ Assoc.names e.responses, NoNumeral code) ∨
      ∃ v, ShowsChoice d.interface.registry endpoints options v ∧ v.hasText = false := by
  rw [fails_clientFile, fails_examples, Interface.exists_literals]
  constructor
  · rintro ((⟨e, he, v, hv, h⟩ | ⟨e, he, v, hv, h⟩ | hcode) | ⟨hexample, v, hv, h⟩)
    · exact .inr ⟨v, .declaration he hv, h⟩
    · exact .inr ⟨v, .signature he hv, h⟩
    · exact .inl hcode
    · exact .inr ⟨v, .call hexample hv, h⟩
  · rintro (hcode | ⟨v, ⟨he, hv⟩ | ⟨he, hv⟩ | ⟨hexample, hv⟩, h⟩)
    · exact .inl (.inr (.inr hcode))
    · exact .inl (.inl ⟨_, he, v, hv, h⟩)
    · exact .inl (.inr (.inl ⟨_, he, v, hv, h⟩))
    · exact .inr ⟨hexample, v, hv, h⟩

theorem fails_project (d : Description) (options : Options) : Fails (d.project options) ↔
    Fails d.document.endpoints ∨
      (∃ operation, d.document.Operates operation ∧
        ∃ code, ResponseCode operation code ∧ NoNumeral code) ∨
      ∃ found v, d.document.endpoints = .ok found ∧
        ShowsChoice d.interface.registry found.items options v ∧ v.hasText = false := by
  have hendpoints : Fails d.endpoints ↔ Fails d.document.endpoints := fails_mapError
  rw [Description.project, ← hendpoints]
  refine fails_bind_of fun found hfound => ?_
  have hok := mapError_eq_ok.1 hfound
  rw [fails_bind_of fun _ _ => fails_bind_pure, fails_files]
  refine or_congr ⟨?_, ?_⟩ ⟨fun ⟨v, hv, h⟩ => ⟨found, v, hok, hv, h⟩, ?_⟩
  · rintro ⟨e, he, code, hmem, h⟩
    obtain ⟨operation, hoperation, hcode⟩ := (Document.exists_endpoint_code hok).1 ⟨e, he, hmem⟩
    exact ⟨operation, hoperation, code, hcode, h⟩
  · rintro ⟨operation, hoperation, code, hcode, h⟩
    obtain ⟨e, he, hmem⟩ := (Document.exists_endpoint_code hok).2 ⟨operation, hoperation, hcode⟩
    exact ⟨e, he, code, hmem, h⟩
  · rintro ⟨found', v, hok', hv, h⟩
    cases hok.symm.trans hok'
    exact ⟨v, hv, h⟩

/-- Generation first reads the named schemas, then the endpoints, and in the end the codes and the
choices that are shown. -/
theorem fails_generate {raw : Value} {doc : Document} (h : Description.validated raw = .ok doc)
    (options : Options) : Fails (generate raw options) ↔
      Fails doc.registry ∨ Fails doc.endpoints ∨
        (∃ operation, doc.Operates operation ∧
          ∃ code, ResponseCode operation code ∧ NoNumeral code) ∨
        ∃ reg found v, doc.registry = .ok reg ∧ doc.endpoints = .ok found ∧
          ShowsChoice reg found.items options v ∧ v.hasText = false := by
  have hread : Description.ofValue raw options.sourceUrl =
      (doc.registry.mapError .extraction).map fun registry =>
        ⟨doc, doc.info.title, doc.baseUrl, options.sourceUrl, registry⟩ := by
    rw [Description.ofValue, h]
    rfl
  have hregistry : Fails (Description.ofValue raw options.sourceUrl) ↔ Fails doc.registry := by
    rw [hread, fails_map, fails_mapError]
  rw [generate, ← hregistry]
  refine fails_bind_of fun d hd => ?_
  rw [hread] at hd
  obtain ⟨reg, hreg, rfl⟩ := exists_of_map_eq_ok hd
  have hreg := mapError_eq_ok.1 hreg
  rw [fails_project]
  simp only [hreg, Except.ok.injEq, exists_and_left, exists_eq_left']

/-- The refused schemas are those with a required name that is no text and those that a text is
asked of that there is none of. -/
theorem Document.exists_refused (doc : Document) :
    (∃ schema, doc.SchemaAt schema ∧ Refused schema) ↔
      (∃ schema, doc.SchemaAt schema ∧ ∃ object, Visits schema object ∧ Misnames object) ∨
      ∃ schema, doc.SchemaAt schema ∧ ∃ part, Visits schema part ∧ Textless part := by
  simp only [Refused, and_or_left, exists_or]

/-- Something that a text is taken of stands in a schema, a parameter or an operation. -/
theorem Document.exists_asks (doc : Document) :
    (∃ v, doc.Asks v ∧ v.hasText = false) ↔
      (∃ schema, doc.SchemaAt schema ∧ ∃ part, Visits schema part ∧ Textless part) ∨
      (∃ raw, doc.ParametersAt raw ∧ ∃ fields, KeptIn doc.parameters raw fields ∧
        ∃ v ∈ parameterTexts fields, v.hasText = false) ∨
      ∃ operation, doc.Operates operation ∧ ∃ v, TextOf operation v ∧ v.hasText = false := by
  constructor
  · rintro ⟨v, ⟨hat, hvisits, hv⟩ | ⟨hat, hkept, hv⟩ | ⟨hoperates, hv⟩, h⟩
    · exact .inl ⟨_, hat, _, hvisits, v, hv, h⟩
    · exact .inr (.inl ⟨_, hat, _, hkept, v, hv, h⟩)
    · exact .inr (.inr ⟨_, hoperates, v, hv, h⟩)
  · rintro (⟨_, hat, _, hvisits, v, hv, h⟩ | ⟨_, hat, _, hkept, v, hv, h⟩ |
      ⟨_, hoperates, v, hv, h⟩)
    · exact ⟨v, .schema hat hvisits hv, h⟩
    · exact ⟨v, .parameter hat hkept hv, h⟩
    · exact ⟨v, .operation hoperates hv, h⟩

/-- The reasons for which a document is not read. -/
theorem Document.fails_reading (doc : Document) :
    (Fails doc.registry ∨ Fails doc.endpoints) ↔
      (∃ schema, doc.SchemaAt schema ∧ Refused schema) ∨
      (∃ parameters, doc.ParametersAt parameters ∧ HasNoItems parameters) ∨
      (∃ content, doc.ContentAt content ∧ Mistyped content) ∨
      (∃ raw, doc.ParametersAt raw ∧ ∃ fields, KeptIn doc.parameters raw fields ∧
        ∃ v ∈ parameterTexts fields, v.hasText = false) ∨
      ∃ operation, doc.Operates operation ∧ ∃ v, TextOf operation v ∧ v.hasText = false := by
  have hparameters : (∃ raw, doc.ParametersAt raw ∧ ParametersRefused doc.parameters raw) ↔
      (∃ raw, doc.ParametersAt raw ∧ HasNoItems raw) ∨
      (∃ raw, doc.ParametersAt raw ∧ ∃ fields, KeptIn doc.parameters raw fields ∧
        ∃ v ∈ parameterTexts fields, v.hasText = false) ∨
      ∃ raw, doc.ParametersAt raw ∧
        ∃ schema, ParameterSchema doc.parameters raw schema ∧ Refused schema := by
    simp only [ParametersRefused, and_or_left, exists_or]
  have hcontents : (∃ content, doc.ContentAt content ∧ ContentRefused content) ↔
      (∃ content, doc.ContentAt content ∧ Mistyped content) ∨ ∃ content, doc.ContentAt content ∧
        ∃ schema, MediaSchema content schema ∧ Refused schema := by
    simp only [ContentRefused, and_or_left, exists_or]
  rw [fails_registry, fails_endpoints, hparameters, hcontents, exists_refused_schemaAt]
  exact iff_of_eq (by ac_rfl)

/-- The reasons for which a validated document gets no client. -/
theorem fails_generate_iff {raw : Value} {doc : Document} (h : Description.validated raw = .ok doc)
    (options : Options) : Fails (generate raw options) ↔
      (∃ schema, doc.SchemaAt schema ∧ ∃ object, Visits schema object ∧ Misnames object) ∨
      (∃ parameters, doc.ParametersAt parameters ∧ HasNoItems parameters) ∨
      (∃ content, doc.ContentAt content ∧ Mistyped content) ∨
      (∃ operation, doc.Operates operation ∧
        ∃ code, ResponseCode operation code ∧ NoNumeral code) ∨
      (∃ v, doc.Asks v ∧ v.hasText = false) ∨
      ∃ reg found v, doc.registry = .ok reg ∧ doc.endpoints = .ok found ∧
        ShowsChoice reg found.items options v ∧ v.hasText = false := by
  rw [fails_generate h, ← or_assoc, doc.fails_reading, doc.exists_refused, doc.exists_asks]
  exact iff_of_eq (by ac_rfl)

/-- An operation whose only response has a superscript digit for its code. -/
def raisedOperation : List (Value × Value) :=
  [(.text "responses", .map [(.text "²", .map [])])]

def raisedValue : Value :=
  .map [
    (.text "openapi", .text "3.0.0"),
    (.text "info", .map [(.text "title", .text "Items"), (.text "version", .int 1)]),
    (.text "paths", .map [(.text "/items", .map [(.text "get", .map raisedOperation)])])]

def raisedDocument : Document where
  format := "3.0.0"
  info := ⟨"Items", "1", none⟩
  servers := []
  paths := [("/items", [("get", .map raisedOperation)])]
  components := none

theorem fails_generate_raisedValue : Description.validated raisedValue = .ok raisedDocument ∧
    Fails (generate raisedValue .default) := by
  have hdoc : Description.validated raisedValue = .ok raisedDocument :=
    Description.validated_eq_ok.2 ⟨by decide, rfl⟩
  have hoperates : raisedDocument.Operates raisedOperation :=
    ⟨_, List.mem_singleton_self _, .get, rfl⟩
  have hcode : ResponseCode raisedOperation "²" := ⟨_, rfl, _, List.mem_singleton_self _, rfl⟩
  refine ⟨hdoc, (fails_generate_iff hdoc .default).2 (.inr (.inr (.inr (.inl ?_))))⟩
  exact ⟨_, hoperates, _, hcode, by decide, by decide⟩

/-- A description of nothing but a schema that is described by a number. -/
def describedValue : Value :=
  .map [
    (.text "openapi", .text "3.0.0"),
    (.text "info", .map [(.text "title", .text "Items"), (.text "version", .text "1")]),
    (.text "paths", .map []),
    (.text "components", .map [(.text "schemas", .map [(.text "Item", describedByNumber)])])]

def describedDocument : Document where
  format := "3.0.0"
  info := ⟨"Items", "1", none⟩
  servers := []
  paths := []
  components := some ⟨[("Item", describedByNumber)], []⟩

/-- The structure of a document does not decide alone whether it gets a client. -/
theorem not_fails_generate_iff_structure : ¬ ∀ raw doc options,
    Description.validated raw = .ok doc → (Fails (generate raw options) ↔
      (∃ schema, doc.SchemaAt schema ∧ ∃ object, Visits schema object ∧ Misnames object) ∨
      (∃ parameters, doc.ParametersAt parameters ∧ HasNoItems parameters) ∨
      (∃ content, doc.ContentAt content ∧ Mistyped content) ∨
      (∃ operation, doc.Operates operation ∧
        ∃ code, ResponseCode operation code ∧ NoNumeral code)) := by
  have hdoc : Description.validated describedValue = .ok describedDocument :=
    Description.validated_eq_ok.2 ⟨by decide, rfl⟩
  have hregistry : Fails describedDocument.registry :=
    (Document.fails_registry _).2 ⟨_, List.mem_singleton_self _, refused_describedByNumber⟩
  have hoperates (operation : List (Value × Value)) : ¬ describedDocument.Operates operation := by
    rintro ⟨p, hp, -⟩
    cases hp
  have hparameters (raw : Value) : ¬ describedDocument.ParametersAt raw := by
    rintro (⟨hp, -⟩ | ⟨hoperation, -⟩)
    · cases hp
    · exact hoperates _ hoperation
  have hcontent (content : Value) : ¬ describedDocument.ContentAt content :=
    fun ⟨operation, hoperation, _⟩ => hoperates operation hoperation
  intro h
  rcases (h _ _ .default hdoc).1 ((fails_generate hdoc .default).2 (.inl hregistry)) with
    ⟨schema, hat, object, hvisits, hmisnames⟩ | ⟨raw, hat, -⟩ | ⟨content, hat, -⟩ |
      ⟨operation, hat, -⟩
  · cases hat with
    | named he =>
      rw [List.mem_singleton.1 he] at hvisits
      exact not_misnames_of_visits_describedByNumber hvisits hmisnames
    | parameter hraw => exact hparameters _ hraw
    | content hat => exact hcontent _ hat
  · exact hparameters raw hat
  · exact hcontent content hat
  · exact hoperates operation hat

end TypedClient
