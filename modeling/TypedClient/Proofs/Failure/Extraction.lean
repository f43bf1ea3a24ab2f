import TypedClient.Proofs.Failure.Schema
import TypedClient.Endpoint.Extraction

/-!
# Descriptions without endpoints

Extraction reads the parameters of every path and of every operation, and the contents of the
request body and of the responses of every operation (`ParametersAt`, `ContentAt`). It fails exactly
if one of the former has no items, if one of the latter is given for a media type that is no text,
if a schema in one of them is refused, or if the text of something is taken that has none
(`fails_endpoints`). What is skipped on the way is never read, whatever it holds.
-/

namespace TypedClient

open Schema

namespace Extraction

/-- The map that an item among the parameters stands for: the item itself, or the named parameter
that it refers to. -/
inductive StandsFor (parameters : List (String × Value)) : Value → List (Value × Value) → Prop
  | own {fields : List (Value × Value)} : Value.get fields "$ref" = .null →
    StandsFor parameters (.map fields) fields
  | named {fields target : List (Value × Value)} {name : String} :
    Value.get fields "$ref" = .text ("#/components/parameters/" ++ name) →
    Assoc.find? parameters name = some (.map target) → StandsFor parameters (.map fields) target

/-- A parameter that is kept: it has a place in requests and a name. -/
structure IsKept (fields : List (Value × Value)) : Prop where
  location : ∃ l : Location, Value.get fields "in" = .text l.keyword
  name : (Value.get fields "name").isTruthy = true

/-- A schema of a kept parameter of a list. -/
inductive ParameterSchema (parameters : List (String × Value)) : Value → Value → Prop
  | of_item {items : List Value} {item : Value} {fields : List (Value × Value)} {schema : Value} :
    item ∈ items → StandsFor parameters item fields → IsKept fields →
    Value.find? fields "schema" = some schema → ParameterSchema parameters (.list items) schema

/-- A kept parameter of a list. -/
inductive KeptIn (parameters : List (String × Value)) : Value → List (Value × Value) → Prop
  | of_item {items : List Value} {item : Value} {fields : List (Value × Value)} :
    item ∈ items → StandsFor parameters item fields → IsKept fields →
    KeptIn parameters (.list items) fields

/-- The values of a kept parameter whose texts are taken. -/
def parameterTexts (fields : List (Value × Value)) : List Value :=
  [Value.get fields "name", Value.get fields "description"]

/-- A schema of a media type of a content. -/
inductive MediaSchema : Value → Value → Prop
  | of_entry {content media : List (Value × Value)} {key schema : Value} :
    (key, .map media) ∈ content → Value.get media "schema" = schema → schema ≠ .null →
    MediaSchema (.map content) schema

/-- A value that is not empty and has no items. -/
inductive HasNoItems : Value → Prop
  | bool : HasNoItems (.bool true)
  | int {i : Int} : i ≠ 0 → HasNoItems (.int i)
  | float {x : Binary64} : x.isZero = false → HasNoItems (.float x)
  | moment (m : Moment) : HasNoItems (.moment m)

/-- A content with a media type that is no text. -/
inductive Mistyped : Value → Prop
  | of_entry {content : List (Value × Value)} {e : Value × Value} : e ∈ content →
    (∀ s, e.1 ≠ .text s) → Mistyped (.map content)

/-- The contents of the request body and of the responses of an operation. -/
inductive ContentOf (operation : List (Value × Value)) : Value → Prop
  | body {body : List (Value × Value)} : Value.get operation "requestBody" = .map body →
    ContentOf operation (Value.get body "content")
  | response {responses response : List (Value × Value)} {code : Value} :
    Value.get operation "responses" = .map responses → (code, .map response) ∈ responses →
    ContentOf operation (Value.get response "content")

/-- The values of an operation whose texts are taken, those of its parameters apart. -/
inductive TextOf (operation : List (Value × Value)) : Value → Prop
  | own {v : Value} : v ∈ [Value.get operation "operationId", Value.get operation "summary",
      Value.get operation "description"] → TextOf operation v
  | tag {tags : List Value} {v : Value} : Value.get operation "tags" = .list tags → v ∈ tags →
    TextOf operation v
  | code {responses : List (Value × Value)} {e : Value × Value} :
    Value.get operation "responses" = .map responses → e ∈ responses → TextOf operation e.1
  | response {responses response : List (Value × Value)} {code : Value} :
    Value.get operation "responses" = .map responses → (code, .map response) ∈ responses →
    TextOf operation (Value.get response "description")

end Extraction

open Extraction

namespace Document

variable (doc : Document)

/-- A map under one of the verbs at one of the paths. -/
def Operates (operation : List (Value × Value)) : Prop :=
  ∃ p ∈ doc.paths, ∃ verb : Verb, Assoc.find? p.2 verb.keyword = some (.map operation)

/-- The value that a path or an operation gives for its parameters. -/
inductive ParametersAt : Value → Prop
  | path {p : String × List (String × Value)} {raw : Value} : p ∈ doc.paths →
    Assoc.find? p.2 "parameters" = some raw → ParametersAt raw
  | operation {operation : List (Value × Value)} {raw : Value} : doc.Operates operation →
    Value.find? operation "parameters" = some raw → ParametersAt raw

/-- The value that a request body or a response of an operation gives for its content. -/
def ContentAt (content : Value) : Prop :=
  ∃ operation, doc.Operates operation ∧ ContentOf operation content

/-- The values that are read as schemas on their own. -/
inductive SchemaAt : Value → Prop
  | named {e : String × Value} : e ∈ doc.schemas → SchemaAt e.2
  | parameter {raw schema : Value} : doc.ParametersAt raw →
    ParameterSchema doc.parameters raw schema → SchemaAt schema
  | content {content schema : Value} : doc.ContentAt content → MediaSchema content schema →
    SchemaAt schema

/-- The values whose texts are taken when the description is read. -/
inductive Asks : Value → Prop
  | schema {schema part v : Value} : doc.SchemaAt schema → Visits schema part →
    v ∈ Schema.asked part → Asks v
  | parameter {raw v : Value} {fields : List (Value × Value)} : doc.ParametersAt raw →
    KeptIn doc.parameters raw fields → v ∈ parameterTexts fields → Asks v
  | operation {operation : List (Value × Value)} {v : Value} : doc.Operates operation →
    TextOf operation v → Asks v

end Document

theorem Value.isText_eq_true {s : String} {v : Value} : v.isText s = true ↔ v = .text s := by
  cases v <;> simp [isText]

theorem Location.mem_all (l : Location) : l ∈ all := by
  cases l <;> decide

theorem Verb.mem_all (verb : Verb) : verb ∈ all := by
  cases verb <;> decide

namespace Extraction

variable (parameters : List (String × Value))

theorem fails_readSchema (raw : Value) : Fails (readSchema raw) ↔ Refused raw := by
  rw [readSchema, fails_mapError, fails_ofValue]

/-! ## Parameters -/

theorem parameterTarget?_eq_some {ref v : Value} : parameterTarget? parameters ref = some v ↔
    ∃ name, ref = .text ("#/components/parameters/" ++ name) ∧
      Assoc.find? parameters name = some v := by
  unfold parameterTarget?
  split
  · rename_i ref
    rw [Option.bind_eq_some_iff]
    constructor
    · rintro ⟨rest, hrest, hv⟩
      refine ⟨String.ofList rest, ?_, hv⟩
      rw [← String.ofList_toList (s := ref), Text.eq_append_of_dropStart? hrest,
        String.ofList_append, String.ofList_toList]
      rfl
    · rintro ⟨name, href, hv⟩
      refine ⟨name.toList, ?_, by rwa [String.ofList_toList]⟩
      rw [Value.text.inj href, String.toList_append]
      exact Text.dropStart?_append _ _
  · rename_i h
    simp only [reduceCtorEq, false_iff]
    rintro ⟨name, rfl, -⟩
    exact h _ rfl

theorem standsFor_map_iff {fields target : List (Value × Value)} :
    StandsFor parameters (.map fields) target ↔
      Value.get fields "$ref" = .null ∧ target = fields ∨
        parameterTarget? parameters (Value.get fields "$ref") = some (.map target) := by
  rw [parameterTarget?_eq_some]
  constructor
  · intro h
    cases h with
    | own href => exact .inl ⟨href, rfl⟩
    | named href htarget => exact .inr ⟨_, href, htarget⟩
  · rintro (⟨href, rfl⟩ | ⟨name, href, htarget⟩)
    · exact .own href
    · exact .named href htarget

theorem location?_eq_none {raw : Value} :
    location? raw = none ↔ ∀ l : Location, raw ≠ .text l.keyword := by
  simp only [location?, List.find?_eq_none, Value.isText_eq_true, Location.mem_all, forall_const,
    ne_eq]

theorem fails_parameter (fields : List (Value × Value)) : Fails (parameter fields) ↔
    IsKept fields ∧ ((∃ v ∈ parameterTexts fields, v.hasText = false) ∨
      ∃ schema, Value.find? fields "schema" = some schema ∧ Refused schema) := by
  unfold parameter
  split
  · rename_i hlocation
    simp only [not_fails_ok, false_iff]
    rintro ⟨⟨⟨l, hl⟩, -⟩, -⟩
    exact location?_eq_none.1 hlocation l hl
  · rename_i l hlocation
    have hl : ∃ l : Location, Value.get fields "in" = .text l.keyword := by
      by_contra hn
      rw [location?_eq_none.2 (not_exists.1 hn)] at hlocation
      cases hlocation
    split
    · rename_i hname
      have hkept : IsKept fields := ⟨hl, hname⟩
      simp only [hkept, true_and]
      have htexts : Fails (Value.requireTexts ExtractionFault.noText (parameterTexts fields)) ↔
          ∃ v ∈ parameterTexts fields, v.hasText = false := Value.fails_requireTexts
      rw [← parameterTexts, ← htexts]
      refine fails_bind_of fun _ _ => ?_
      rcases hraw : Value.find? fields "schema" with _ | raw
      · simp
      · simp [fails_readSchema]
    · rename_i hname
      simp only [not_fails_ok, false_iff]
      exact fun h => hname h.1.name

theorem fails_item (raw : Value) : Fails (item parameters raw) ↔ ∃ fields,
    StandsFor parameters raw fields ∧ IsKept fields ∧
      ((∃ v ∈ parameterTexts fields, v.hasText = false) ∨
        ∃ schema, Value.find? fields "schema" = some schema ∧ Refused schema) := by
  unfold item
  split
  · rename_i fields
    simp only [standsFor_map_iff]
    split
    · rename_i href
      simp [href, parameterTarget?, fails_parameter]
    · rename_i href
      have hne : Value.get fields "$ref" ≠ .null := href
      split
      · rename_i target htarget
        simp [hne, htarget, fails_parameter]
      · rename_i htarget
        simp only [not_fails_ok, hne, false_and, false_or, false_iff]
        rintro ⟨target, h, -⟩
        exact htarget target h
  · rename_i hmap
    simp only [not_fails_ok, false_iff]
    rintro ⟨fields, h, -⟩
    cases h <;> exact hmap _ rfl

theorem fails_parameterItems (raw : Value) : Fails (parameterItems raw) ↔ HasNoItems raw := by
  unfold parameterItems
  split
  · simp only [not_fails_ok, false_iff]
    intro h
    cases h
  · simp only [not_fails_ok, false_iff]
    intro h
    cases h
  · simp only [not_fails_ok, false_iff]
    intro h
    cases h
  · split
    · rename_i h
      simp only [fails_error, true_iff]
      cases raw with
      | bool b => cases h; exact .bool
      | int i => exact .int (by simpa [Value.isTruthy] using h)
      | float x => exact .float (by simpa [Value.isTruthy] using h)
      | moment m => exact .moment m
      | _ => simp_all [Value.isTruthy]
    · rename_i h
      simp only [not_fails_ok, false_iff]
      intro hno
      cases hno <;> simp_all [Value.isTruthy]

theorem parameterItems_eq_ok {raw : Value} {items : List Value}
    (h : parameterItems raw = .ok items) :
    raw = .list items ∨ items = [] ∧ ∀ others, raw ≠ .list others := by
  unfold parameterItems at h
  split at h
  · cases h
    exact .inl rfl
  · cases h
    exact .inr ⟨rfl, by simp⟩
  · cases h
    exact .inr ⟨rfl, by simp⟩
  · rename_i hlist _ _
    split at h <;> cases h
    exact .inr ⟨rfl, hlist⟩

/-- Reading a value as the parameters of a path or an operation fails. -/
def ParametersRefused (raw : Value) : Prop :=
  HasNoItems raw ∨
    (∃ fields, KeptIn parameters raw fields ∧ ∃ v ∈ parameterTexts fields, v.hasText = false) ∨
    ∃ schema, ParameterSchema parameters raw schema ∧ Refused schema

theorem fails_readParameters (raw : Value) :
    Fails (readParameters parameters raw) ↔ ParametersRefused parameters raw := by
  have hschema (items : List Value) : (∃ raw ∈ items, Fails (item parameters raw)) ↔
      (∃ fields, KeptIn parameters (.list items) fields ∧
        ∃ v ∈ parameterTexts fields, v.hasText = false) ∨
      ∃ schema, ParameterSchema parameters (.list items) schema ∧ Refused schema := by
    simp only [fails_item]
    constructor
    · rintro ⟨raw, hraw, fields, hfor, hkept, hv | ⟨schema, hfind, hrefused⟩⟩
      · exact .inl ⟨fields, .of_item hraw hfor hkept, hv⟩
      · exact .inr ⟨schema, .of_item hraw hfor hkept hfind, hrefused⟩
    · rintro (⟨fields, ⟨hraw, hfor, hkept⟩, hv⟩ | ⟨schema, ⟨hraw, hfor, hkept, hfind⟩, hrefused⟩)
      · exact ⟨_, hraw, _, hfor, hkept, .inl hv⟩
      · exact ⟨_, hraw, _, hfor, hkept, .inr ⟨schema, hfind, hrefused⟩⟩
  rw [readParameters, ParametersRefused, ← fails_parameterItems]
  refine fails_bind_of fun items hitems => ?_
  rw [fails_bind_pure, fails_mapM]
  rcases parameterItems_eq_ok hitems with rfl | ⟨rfl, hlist⟩
  · exact hschema items
  · simp only [List.not_mem_nil, false_and, exists_false, false_iff]
    rintro (⟨fields, ⟨⟩, -⟩ | ⟨schema, ⟨⟩, -⟩) <;> exact hlist _ rfl

/-! ## Bodies -/

/-- Reading a content fails. -/
def ContentRefused (content : Value) : Prop :=
  Mistyped content ∨ ∃ schema, MediaSchema content schema ∧ Refused schema

theorem fails_mediaSchema (media : Value) : Fails (mediaSchema media) ↔ ∃ fields,
    media = .map fields ∧ Value.get fields "schema" ≠ .null ∧
      Refused (Value.get fields "schema") := by
  unfold mediaSchema
  cases media with
  | map fields =>
    simp only [Form.entriesOf, Value.map.injEq, exists_eq_left']
    split
    · rename_i h
      simp [h]
    · rename_i h
      have hne : Value.get fields "schema" ≠ .null := h
      simp [fails_readSchema, hne]
  | _ => simp [Form.entriesOf, Value.get, Value.find?]

theorem fails_readContent (content : Value) :
    Fails (readContent content) ↔ ContentRefused content := by
  have hschema : (∃ e ∈ Form.entriesOf content, Fails (mediaSchema e.2)) ↔
      ∃ schema, MediaSchema content schema ∧ Refused schema := by
    simp only [fails_mediaSchema]
    constructor
    · rintro ⟨⟨key, media⟩, he, fields, rfl, hnull, hrefused⟩
      cases content with
      | map entries => exact ⟨_, .of_entry he rfl hnull, hrefused⟩
      | _ => cases he
    · rintro ⟨schema, ⟨he, rfl, hnull⟩, hrefused⟩
      exact ⟨_, he, _, rfl, hnull, hrefused⟩
  have htyped : (∃ e ∈ Form.entriesOf content, ∀ s, e.1 ≠ .text s) ↔ Mistyped content := by
    constructor
    · rintro ⟨e, he, hs⟩
      cases content with
      | map entries => exact .of_entry he hs
      | _ => cases he
    · rintro ⟨he, hs⟩
      exact ⟨_, he, hs⟩
  rw [readContent, ContentRefused, or_comm, ← hschema, ← htyped]
  -- all schemas are read before any media type is looked at
  have hmedia (e : Value × Value) : Fails ((mediaSchema e.2).map (e.1, ·)) ↔
      Fails (mediaSchema e.2) := fails_map
  simp only [← hmedia]
  rw [← fails_mapM]
  refine fails_bind_of fun schemas hschemas => ?_
  rw [fails_mapM]
  refine exists_mem_of_mapM (fun e r hr => ?_) hschemas
  obtain ⟨schema, rfl⟩ : ∃ schema, r = (e.1, schema) := by
    rcases hm : mediaSchema e.2 with fault | schema
    · rw [hm] at hr
      cases hr
    · rw [hm] at hr
      cases hr
      exact ⟨schema, rfl⟩
  rcases e with ⟨key, media⟩
  cases key <;> simp

theorem fails_readRequestBody (raw : Value) : Fails (readRequestBody raw) ↔
    ∃ body, raw = .map body ∧ ContentRefused (Value.get body "content") := by
  unfold readRequestBody
  split
  · rename_i body
    simp [fails_readContent]
  · rename_i hmap
    simp only [not_fails_ok, false_iff]
    rintro ⟨body, rfl, -⟩
    exact hmap body rfl

theorem not_contentRefused_null : ¬ ContentRefused .null := by
  rintro (h | ⟨_, h, -⟩) <;> cases h

theorem fails_readResponse (raw : Value) : Fails (readResponse raw) ↔
    ∃ response, raw = .map response ∧ ((Value.get response "description").hasText = false ∨
      ContentRefused (Value.get response "content")) := by
  rw [readResponse, fails_bind_of fun _ _ => fails_bind_pure, Value.fails_requireTexts,
    fails_readContent]
  cases raw with
  | map response => simp [Form.entriesOf]
  | _ =>
    simp [Form.entriesOf, Value.get, Value.find?, Value.hasText, Value.isInspected,
      not_contentRefused_null]

/-- A response under the text of its code. -/
def readCoded (e : Value × Value) : Except ExtractionFault (String × Response) := do
  let response ← readResponse e.2
  Value.requireTexts .noText [e.1]
  return (e.1.display, response)

theorem readResponses_eq (raw : Value) : readResponses raw =
    (Form.entriesOf raw).mapM readCoded >>= fun responses => pure (Assoc.ofPairs responses) := rfl

theorem readCoded_eq_ok {e : Value × Value} {r : String × Response} (h : readCoded e = .ok r) :
    e.1.hasText = true ∧ r.1 = e.1.display ∧ readResponse e.2 = .ok r.2 := by
  obtain ⟨response, hresponse, h⟩ := exists_of_bind_eq_ok h
  obtain ⟨⟨⟩, htext, h⟩ := exists_of_bind_eq_ok h
  cases h
  exact ⟨Value.requireTexts_eq_ok.1 htext _ List.mem_cons_self, rfl, hresponse⟩

theorem fails_readResponses (raw : Value) : Fails (readResponses raw) ↔
    ∃ responses, raw = .map responses ∧ ∃ e ∈ responses, e.1.hasText = false ∨
      ∃ response, e.2 = .map response ∧ ((Value.get response "description").hasText = false ∨
        ContentRefused (Value.get response "content")) := by
  have hcoded (e : Value × Value) : Fails (readCoded e) ↔
      e.1.hasText = false ∨ Fails (readResponse e.2) := by
    rw [readCoded, fails_bind_of fun _ _ => fails_bind_pure, Value.fails_requireTexts, or_comm]
    simp
  rw [readResponses_eq, fails_bind_pure, fails_mapM]
  simp only [hcoded, fails_readResponse]
  cases raw <;> simp [Form.entriesOf]

/-! ## Operations -/

theorem exists_of_mem_itemsOf {raw v : Value} (h : v ∈ Form.itemsOf raw) :
    ∃ items, raw = .list items ∧ v ∈ items := by
  cases raw with
  | list items => exact ⟨items, rfl, h⟩
  | _ => cases h

theorem fails_readOperation (path : String) (shared : List Parameter) (verb : Verb)
    (operation : List (Value × Value)) :
    Fails (readOperation parameters path shared verb operation) ↔
      (∃ v, TextOf operation v ∧ v.hasText = false) ∨
        ParametersRefused parameters (Value.get operation "parameters") ∨
          ∃ content, ContentOf operation content ∧ ContentRefused content := by
  rw [readOperation, fails_bind_of fun _ _ => fails_bind_of fun _ _ => fails_bind_of fun _ _ =>
    fails_bind_of fun _ _ => fails_bind_pure, Value.fails_requireTexts, Value.fails_requireTexts,
    fails_readParameters, fails_readRequestBody, fails_readResponses]
  constructor
  · rintro (⟨v, hv, h⟩ | hparameters | ⟨body, hbody, h⟩ |
      ⟨responses, hresponses, ⟨code, _⟩, he, h | ⟨response, rfl, h | h⟩⟩ | ⟨v, hv, h⟩)
    · exact .inl ⟨v, .own hv, h⟩
    · exact .inr (.inl hparameters)
    · exact .inr (.inr ⟨_, .body hbody, h⟩)
    · exact .inl ⟨_, .code hresponses he, h⟩
    · exact .inl ⟨_, .response hresponses he, h⟩
    · exact .inr (.inr ⟨_, .response hresponses he, h⟩)
    · obtain ⟨tags, htags, hv⟩ := exists_of_mem_itemsOf hv
      exact .inl ⟨v, .tag htags hv, h⟩
  · rintro (⟨v, hv | ⟨htags, hv⟩ | ⟨hresponses, he⟩ | ⟨hresponses, he⟩, h⟩ | hparameters |
      ⟨content, hbody | ⟨hresponses, he⟩, h⟩)
    · exact .inl ⟨v, hv, h⟩
    · exact .inr (.inr (.inr (.inr ⟨v, by rwa [htags], h⟩)))
    · exact .inr (.inr (.inr (.inl ⟨_, hresponses, _, he, .inl h⟩)))
    · exact .inr (.inr (.inr (.inl ⟨_, hresponses, _, he, .inr ⟨_, rfl, .inl h⟩⟩)))
    · exact .inr (.inl hparameters)
    · exact .inr (.inr (.inl ⟨_, hbody, h⟩))
    · exact .inr (.inr (.inr (.inl ⟨_, hresponses, _, he, .inr ⟨_, rfl, .inr h⟩⟩)))

/-- The endpoint of an operation, put together from what has been read of it. -/
def endpointOf (path : String) (verb : Verb) (operation : List (Value × Value))
    (parameters : List Parameter) (body : Option RequestBody)
    (responses : List (String × Response)) : Endpoint where
  verb := verb
  path := path
  operationId := operationId verb path operation
  summary := (Value.get operation "summary").optionalText
  description := (Value.get operation "description").optionalText
  parameters := parameters
  requestBody := body
  responses := responses
  tags := readTags (Value.get operation "tags")

variable {parameters} in
theorem exists_of_readOperation_eq_ok {path : String} {shared : List Parameter} {verb : Verb}
    {operation : List (Value × Value)} {r : Reported Endpoint}
    (h : readOperation parameters path shared verb operation = .ok r) :
    ∃ own body responses, readParameters parameters (Value.get operation "parameters") = .ok own ∧
      readRequestBody (Value.get operation "requestBody") = .ok body ∧
      readResponses (Value.get operation "responses") = .ok responses ∧
      r = ⟨[endpointOf path verb operation (shared ++ own.items) body responses], own.notices⟩ := by
  obtain ⟨-, -, h⟩ := exists_of_bind_eq_ok h
  obtain ⟨own, hown, h⟩ := exists_of_bind_eq_ok h
  obtain ⟨body, hbody, h⟩ := exists_of_bind_eq_ok h
  obtain ⟨responses, hresponses, h⟩ := exists_of_bind_eq_ok h
  obtain ⟨-, -, h⟩ := exists_of_bind_eq_ok h
  exact ⟨own, body, responses, hown, hbody, hresponses, (Except.ok.inj h).symm⟩

theorem mem_operations {fields : List (String × Value)} {o : Verb × List (Value × Value)} :
    o ∈ operations fields ↔ Assoc.find? fields o.1.keyword = some (.map o.2) := by
  obtain ⟨verb, operation⟩ := o
  unfold operations
  rw [List.mem_filterMap]
  constructor
  · rintro ⟨verb', -, h⟩
    split at h
    · rename_i hfind
      cases h
      exact hfind
    · cases h
  · intro h
    exact ⟨verb, verb.mem_all, by simp only [h]⟩

theorem fails_readPath (path : String) (fields : List (String × Value)) :
    Fails (readPath parameters path fields) ↔
      ParametersRefused parameters ((Assoc.find? fields "parameters").getD .null) ∨
        ∃ o ∈ operations fields, (∃ v, TextOf o.2 v ∧ v.hasText = false) ∨
          ParametersRefused parameters (Value.get o.2 "parameters") ∨
            ∃ content, ContentOf o.2 content ∧ ContentRefused content := by
  rw [readPath, ← fails_readParameters]
  refine fails_bind_of fun shared _ => ?_
  rw [fails_bind_pure, fails_mapM]
  simp only [fails_readOperation]

theorem not_parametersRefused_null : ¬ ParametersRefused parameters .null := by
  rintro (h | ⟨_, h, -⟩ | ⟨_, h, -⟩) <;> cases h

theorem parametersRefused_getD (raw : Option Value) :
    ParametersRefused parameters (raw.getD .null) ↔
      ∃ v, raw = some v ∧ ParametersRefused parameters v := by
  cases raw <;> simp [not_parametersRefused_null]

end Extraction

namespace Document

variable (doc : Document)

theorem fails_registry : Fails doc.registry ↔ ∃ e ∈ doc.schemas, Refused e.2 := by
  rw [registry, fails_mapError, Registry.ofValues, fails_map, ofMembers_eq_mapM, fails_mapM]
  simp only [fails_ofValue, List.mem_map, exists_exists_and_eq_and]

theorem registry_eq_ok {schemas : List Schema}
    (h : (doc.schemas.map (·.2)).mapM Schema.ofValue = .ok schemas) :
    doc.registry = .ok (.ofPairs ((doc.schemas.map (·.1)).zip schemas)) := by
  rw [registry, Registry.ofValues, ofMembers_eq_mapM, h]
  rfl

theorem fails_endpoints : Fails doc.endpoints ↔
    (∃ operation, doc.Operates operation ∧ ∃ v, TextOf operation v ∧ v.hasText = false) ∨
      (∃ raw, doc.ParametersAt raw ∧ ParametersRefused doc.parameters raw) ∨
        ∃ content, doc.ContentAt content ∧ ContentRefused content := by
  rw [endpoints, fails_bind_pure, fails_mapM]
  simp only [fails_readPath, Value.get, parametersRefused_getD, mem_operations]
  constructor
  · rintro ⟨p, hp, ⟨raw, hfind, h⟩ | ⟨o, ho, h | ⟨raw, hfind, h⟩ | ⟨content, hcontent, h⟩⟩⟩
    · exact .inr (.inl ⟨raw, .path hp hfind, h⟩)
    · exact .inl ⟨o.2, ⟨p, hp, o.1, ho⟩, h⟩
    · exact .inr (.inl ⟨raw, .operation ⟨p, hp, o.1, ho⟩ hfind, h⟩)
    · exact .inr (.inr ⟨content, ⟨o.2, ⟨p, hp, o.1, ho⟩, hcontent⟩, h⟩)
  · rintro (⟨operation, ⟨p, hp, verb, ho⟩, h⟩ |
      ⟨raw, ⟨hp, hfind⟩ | ⟨⟨p, hp, verb, ho⟩, hfind⟩, h⟩ |
      ⟨content, ⟨operation, ⟨p, hp, verb, ho⟩, hcontent⟩, h⟩)
    · exact ⟨p, hp, .inr ⟨(verb, operation), ho, .inl h⟩⟩
    · exact ⟨_, hp, .inl ⟨raw, hfind, h⟩⟩
    · exact ⟨p, hp, .inr ⟨(verb, _), ho, .inr (.inl ⟨raw, hfind, h⟩)⟩⟩
    · exact ⟨p, hp, .inr ⟨(verb, operation), ho, .inr (.inr ⟨content, hcontent, h⟩)⟩⟩

end Document

end TypedClient
