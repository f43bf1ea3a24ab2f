import Mathlib.Data.List.Forall2
import TypedClient.Proofs.Failure.Variant
import TypedClient.Proofs.Generated
import TypedClient.Proofs.Literals

/-!
# Signatures do not depend on the declared schemas

The type at a place is decided by the calls that the walk makes from it, so places whose calls match
have the same type and list the same choices, be it in different registries (`Place.Simulation`).
Where every reference is cut nothing is called for it, whether its name is visited or not declared.
A method visits all declared names from the start, so everything of it but its comment is written as
if no schema were declared.
-/

namespace TypedClient

open TypeExpr

namespace Place

variable {reg reg' : Registry}

theorem map_eq_of_forall₂ {α β γ : Type} {R : α → β → Prop} {f : α → γ} {g : β → γ} {as : List α}
    {bs : List β} (h : List.Forall₂ R as bs) (hfg : ∀ a ∈ as, ∀ b, R a b → f a = g b) :
    as.map f = bs.map g := by
  induction h with
  | nil => rfl
  | cons hab _ ih =>
    rw [List.map_cons, List.map_cons, hfg _ List.mem_cons_self _ hab,
      ih fun a ha => hfg a (List.mem_cons_of_mem _ ha)]

theorem assemble_congr {p q : Place} (h : p.schema = q.schema) : p.assemble = q.assemble := by
  funext types
  rw [assemble, assemble, h]

/-- A relation of places under which schemas are equal and the calls are related again, one by
one. -/
def Simulation (reg reg' : Registry) (R : Place → Place → Prop) : Prop :=
  ∀ p q, R p q → p.schema = q.schema ∧ List.Forall₂ R (p.calls reg) (q.calls reg')

variable {R : Place → Place → Prop} {p q : Place}

theorem type_eq_of_simulation (hR : Simulation reg reg' R) (h : R p q) :
    p.type reg = q.type reg' := by
  induction p using (wellFounded_calls reg).induction generalizing q with
  | _ p ih =>
    obtain ⟨hschema, hcalls⟩ := hR p q h
    rw [type_eq_assemble, type_eq_assemble, assemble_congr hschema]
    exact congrArg _ (map_eq_of_forall₂ hcalls fun a ha b hab => ih a ha hab)

theorem literals_eq_of_simulation (hR : Simulation reg reg' R) (h : R p q) :
    p.literals reg = q.literals reg' := by
  induction p using (wellFounded_calls reg).induction generalizing q with
  | _ p ih =>
    obtain ⟨hschema, hcalls⟩ := hR p q h
    rw [literals_eq, literals_eq, hschema, List.flatMap_def, List.flatMap_def]
    exact congrArg (_ ++ List.flatten ·)
      (map_eq_of_forall₂ hcalls fun a ha b hab => ih a ha hab)

/-- The calls that differ in the visited names only. -/
theorem forall₂_calls {visited visited' : List String} {s : Schema}
    (hR : ∀ t, s.Child t → R ⟨visited, t⟩ ⟨visited', t⟩)
    (href : ∀ ref, s = .reference ref → List.Forall₂ R (calls reg ⟨visited, .reference ref⟩)
      (calls reg' ⟨visited', .reference ref⟩)) :
    List.Forall₂ R (calls reg ⟨visited, s⟩) (calls reg' ⟨visited', s⟩) := by
  cases s with
  | reference ref => exact href ref rfl
  | primitive q => exact .nil
  | unknown raw => exact .nil
  | array element => exact .cons (hR element .element) .nil
  | object properties required additional description =>
    simp only [calls, List.forall₂_map_left_iff, List.forall₂_map_right_iff]
    exact List.forall₂_same.2 fun q hq => hR q.2 (.property hq)
  | combinator kind members =>
    simp only [calls, List.forall₂_map_left_iff, List.forall₂_map_right_iff]
    exact List.forall₂_same.2 fun m hm => hR m (.member hm)

/-- Where no reference is expanded, the registry and the visited names play no part. -/
theorem simulation_of_cut {visited visited' : List String}
    (h : ∀ ref, target? reg visited ref = none) (h' : ∀ ref, target? reg' visited' ref = none) :
    Simulation reg reg' fun p q => ∃ s, p = ⟨visited, s⟩ ∧ q = ⟨visited', s⟩ := by
  rintro _ _ ⟨s, rfl, rfl⟩
  refine ⟨rfl, forall₂_calls (fun t _ => ⟨t, rfl, rfl⟩) fun ref _ => ?_⟩
  simp [calls, h, h']

theorem target?_names (reg : Registry) (ref : String) : target? reg reg.names ref = none := by
  rw [target?_eq_none, Registry.lookup?_eq_none_iff]
  exact Classical.em _

theorem target?_empty (visited : List String) (ref : String) :
    target? .empty visited ref = none :=
  target?_eq_none.2 (.inr rfl)

end Place

namespace Schema

/-- With all declared names visited a schema is walked as if none were declared. -/
theorem simulation_names (reg : Registry) :
    Place.Simulation reg .empty fun p q => ∃ s, p = ⟨reg.names, s⟩ ∧ q = ⟨[], s⟩ :=
  Place.simulation_of_cut (Place.target?_names reg) (Place.target?_empty [])

theorem typeText_names (reg : Registry) (s : Schema) (level : Int) :
    s.typeText reg reg.names level = s.typeText .empty [] level :=
  congrArg (render level) (Place.type_eq_of_simulation (simulation_names reg) ⟨s, rfl, rfl⟩)

theorem literals_names (reg : Registry) (s : Schema) :
    s.literals reg reg.names = s.literals .empty [] :=
  Place.literals_eq_of_simulation (simulation_names reg) ⟨s, rfl, rfl⟩

end Schema

namespace Signature

variable (reg : Registry)

theorem typeOf_eq : typeOf reg = typeOf .empty := by
  funext s
  exact s.typeText_names reg 0

theorem literals_eq : literals reg = literals .empty := by
  funext e
  exact congrArg (schemas e).flatMap (funext fun s => s.literals_names reg)

theorem parameterType_eq : parameterType reg = parameterType .empty := by
  funext p
  rw [parameterType, parameterType, typeOf_eq]

theorem contentType_eq : contentType reg = contentType .empty := by
  funext content
  rw [contentType, contentType, typeOf_eq]

theorem responseType_eq : responseType reg = responseType .empty := by
  funext responses
  rw [responseType, responseType, contentType_eq]

theorem arguments_eq : arguments reg = arguments .empty := by
  funext e
  simp only [arguments, pathType, queryType, parameterType_eq reg, contentType_eq reg]

end Signature

namespace Method

/-- Everything of a method but its comment is the same under every registry. -/
theorem code_eq (reg : Registry) : code reg = code .empty := by
  funext e error level
  rw [code, code, Signature.responseType_eq, Signature.arguments_eq]

/-- A method that can be written at one level under one registry is the same code after its comment
at every level under every registry. -/
theorem exists_code {reg : Registry} {e : Endpoint} {level : Int} {s : String}
    (h : text reg e level = .ok s) : ∃ error, ∀ reg' level',
      text reg' e level' = .ok (DocComment.text reg' e level' ++ code .empty e error level') := by
  obtain ⟨error, herror, -⟩ := exists_of_map_eq_ok h
  refine ⟨error, fun reg' level' => ?_⟩
  rw [text, herror, code_eq]
  rfl

end Method

namespace Document

/-- Documents that differ in nothing but their named schemas. -/
structure AgreesBeyondSchemas (a b : Document) : Prop where
  format : a.format = b.format
  info : a.info = b.info
  servers : a.servers = b.servers
  paths : a.paths = b.paths
  parameters : a.parameters = b.parameters

theorem AgreesBeyondSchemas.endpoints {a b : Document} (h : a.AgreesBeyondSchemas b) :
    a.endpoints = b.endpoints := by
  rw [Document.endpoints, Document.endpoints, h.paths, h.parameters]

end Document

/-- A project is generated only if the methods of all endpoints can be written. -/
theorem Yields.exists_text {raw : Value} {options : Options} {doc : Document} {reg : Registry}
    {found : Reported Endpoint} {clientClass : String}
    (h : Yields raw options doc reg found clientClass) {e : Endpoint} (he : e ∈ found.items) :
    ∃ s, Method.text reg e 1 = .ok s := by
  obtain ⟨-, methods, hmethods, -⟩ := Interface.clientClass_eq_ok.1 h.clientClass
  refine exists_of_not_fails fun hfails => ?_
  have hnone : Fails (found.items.mapM fun e => Method.text reg e 1) :=
    (fails_mapM _ _).2 ⟨e, he, hfails⟩
  rw [show (found.items.mapM fun e => Method.text reg e 1) = .ok methods from hmethods] at hnone
  exact not_fails_ok methods hnone

/-- With all declared names visited every schema is printed as if no schema were declared. So for
two documents that differ in their named schemas only and that both have a project, the endpoints
are the same, and at every level the methods of an endpoint are the same but for their comments. -/
theorem method_eq_of_agreesBeyondSchemas :
    (∀ (reg : Registry) (s : Schema) (level : Int),
      s.typeText reg reg.names level = s.typeText .empty [] level) ∧
    ∀ {raw raw' : Value} {options options' : Options} {p p' : Project × List Notice}
      {doc doc' : Document}, generate raw options = .ok p → generate raw' options' = .ok p' →
      Document.ofValue raw = .ok doc → Document.ofValue raw' = .ok doc' →
      doc.AgreesBeyondSchemas doc' →
      ∃ reg reg' found, doc.registry = .ok reg ∧ doc'.registry = .ok reg' ∧
        doc.endpoints = .ok found ∧ doc'.endpoints = .ok found ∧
        ∀ e ∈ found.items, ∀ level, ∃ code,
          Method.text reg e level = .ok (DocComment.text reg e level ++ code) ∧
          Method.text reg' e level = .ok (DocComment.text reg' e level ++ code) := by
  refine ⟨fun reg s level => s.typeText_names reg level, ?_⟩
  intro raw raw' options options' p p' doc doc' hp hp' hdoc hdoc' hagree
  obtain ⟨_, reg, found, _, hyields, -⟩ := exists_yields hp
  obtain ⟨_, reg', _, _, hyields', -⟩ := exists_yields hp'
  cases hyields.document.symm.trans hdoc
  cases hyields'.document.symm.trans hdoc'
  have hfound' : doc'.endpoints = .ok found := hagree.endpoints ▸ hyields.endpoints
  refine ⟨reg, reg', found, hyields.registry, hyields'.registry, hyields.endpoints, hfound', ?_⟩
  intro e he level
  obtain ⟨s, hs⟩ := hyields.exists_text he
  obtain ⟨error, hcode⟩ := Method.exists_code hs
  exact ⟨_, hcode reg level, hcode reg' level⟩

/-- An operation that mentions a schema in a parameter and in a response. -/
def petsOperation : List (Value × Value) := [
  (.text "parameters", .list [.map [(.text "name", .text "after"), (.text "in", .text "query"),
    (.text "schema", .map [(.text "$ref", .text "#/components/schemas/Pet")])]]),
  (.text "responses", .map [(.int 200, .map [(.text "content", .map [(.text "application/json",
    .map [(.text "schema", .map [(.text "type", .text "array"),
      (.text "items", .map [(.text "$ref", .text "#/components/schemas/Pet")])])])])])])]

def petsValue (schemas : List (Value × Value)) : Value :=
  .map [
    (.text "openapi", .text "3.0.0"),
    (.text "info", .map [(.text "title", .text "Pets"), (.text "version", .text "1")]),
    (.text "paths", .map [(.text "/pets", .map [(.text "get", .map petsOperation)])]),
    (.text "components", .map [(.text "schemas", .map schemas)])]

def petsDocument (schemas : List (String × Value)) : Document where
  format := "3.0.0"
  info := ⟨"Pets", "1", none⟩
  servers := []
  paths := [("/pets", [("get", .map petsOperation)])]
  components := some ⟨schemas, []⟩

/-- What the references of the operation are read as. -/
def petReference : Schema := .reference "#/components/schemas/Pet"

/-- The endpoint of the operation. -/
def petsEndpoint : Endpoint where
  verb := .get
  path := "/pets"
  operationId := Name.operationId "get" "/pets"
  summary := none
  description := none
  parameters := [⟨"after", .query, false, none, some petReference⟩]
  requestBody := none
  responses := [("200", ⟨"", [("application/json", some (.array petReference))]⟩)]
  tags := none

section

open Extraction

theorem readParameters_petsOperation : readParameters [] (Value.get petsOperation "parameters") =
    .ok ⟨petsEndpoint.parameters, []⟩ := by
  let pet : Value := .map [(.text "$ref", .text "#/components/schemas/Pet")]
  have hschema : (readSchema pet).map some = .ok (some petReference) := by
    rw [readSchema, Schema.ofValue_reference]
    rfl
  have hitem : item [] (.map [(.text "name", .text "after"), (.text "in", .text "query"),
      (.text "schema", pet)]) =
        .ok (.kept ⟨"after", .query, false, none, some petReference⟩) :=
    bind_of_eq_ok hschema
  exact bind_of_eq_ok (mapM_singleton_eq_ok hitem)

theorem readResponses_petsOperation : readResponses (Value.get petsOperation "responses") =
    .ok petsEndpoint.responses := by
  let pets : Value := .map [(.text "type", .text "array"),
    (.text "items", .map [(.text "$ref", .text "#/components/schemas/Pet")])]
  let media : Value × Value := (.text "application/json", .map [(.text "schema", pets)])
  have hmedia : (mediaSchema media.2).map (media.1, ·) =
      .ok (media.1, some (.array petReference)) := by
    show ((readSchema pets).map some).map _ = _
    rw [readSchema, Schema.ofValue_array, Schema.ofValue_reference]
    rfl
  have hcontent : readContent (.map [media]) =
      .ok [("application/json", some (.array petReference))] :=
    bind_of_eq_ok (mapM_singleton_eq_ok hmedia)
  have hresponse : readResponse (.map [(.text "content", .map [media])]) =
      .ok ⟨"", [("application/json", some (.array petReference))]⟩ := bind_of_eq_ok hcontent
  have hcoded : readCoded (.int 200, .map [(.text "content", .map [media])]) =
      .ok ("200", ⟨"", [("application/json", some (.array petReference))]⟩) :=
    bind_of_eq_ok hresponse
  rw [readResponses_eq]
  exact bind_of_eq_ok (mapM_singleton_eq_ok hcoded)

theorem petsDocument_endpoints (schemas : List (String × Value)) :
    (petsDocument schemas).endpoints = .ok ⟨[petsEndpoint], []⟩ := by
  -- the steps of the two loops, over the operations of a path and over the paths
  let operation (o : Verb × List (Value × Value)) := readOperation [] "/pets" [] o.1 o.2
  let path (p : String × List (String × Value)) := readPath [] p.1 p.2
  have hoperation : operation (.get, petsOperation) = .ok ⟨[petsEndpoint], []⟩ := by
    show readOperation [] "/pets" [] .get petsOperation = _
    rw [readOperation, readParameters_petsOperation, readResponses_petsOperation]
    rfl
  have hpath : path ("/pets", [("get", .map petsOperation)]) = .ok ⟨[petsEndpoint], []⟩ :=
    bind_of_eq_ok (mapM_singleton_eq_ok hoperation)
  exact bind_of_eq_ok (mapM_singleton_eq_ok hpath)

end

theorem exists_generate_pets {entries : List (Value × Value)} {schemas : List (String × Value)}
    {reg : Registry} (hdoc : Document.ofValue (petsValue entries) = .ok (petsDocument schemas))
    (htexts : Document.readsTexts (petsValue entries) = true)
    (hreg : (petsDocument schemas).registry = .ok reg) (hbare : reg.IsBare) :
    ∃ p, generate (petsValue entries) .default = .ok p := by
  have hschemas : Signature.schemas petsEndpoint = [petReference, .array petReference] := rfl
  have hreference : petReference.literals .empty [] = [] := by
    rw [petReference, Schema.literals_reference, Place.target?_empty]
  have hlisted : ∀ s ∈ Signature.schemas petsEndpoint,
      s.literals reg reg.names = [] ∧ reg.firstChoice? (some s) = none := by
    rw [hschemas, List.forall_mem_cons, List.forall_mem_singleton, Schema.literals_names,
      Schema.literals_names, Schema.literals, hreference]
    exact ⟨⟨rfl, hbare.firstChoice?_reference _⟩, rfl, rfl⟩
  refine exists_generate_eq_ok hdoc htexts hreg (petsDocument_endpoints schemas)
    (fun e he code hcode => ?_) fun v hv => ?_
  · rw [List.mem_singleton.1 he] at hcode
    rw [List.mem_singleton.1 hcode]
    exact fun h => absurd h.2 (by decide)
  · exact absurd hv (hbare.not_showsChoice (List.forall_mem_singleton.2 hlisted))

/-- The method that lists pets is the same whether pets are declared or not. -/
theorem method_eq_of_agreesBeyondSchemas_pets :
    ∃ reg reg', reg.names = ["Pet"] ∧ reg'.names = [] ∧ ∃ found : Reported Endpoint,
      found.items.length = 1 ∧ ∀ e ∈ found.items, ∀ level, ∃ code,
        Method.text reg e level = .ok (DocComment.text reg e level ++ code) ∧
        Method.text reg' e level = .ok (DocComment.text reg' e level ++ code) := by
  let pet : Value := .map [(.text "type", .text "integer")]
  have hdoc : Document.ofValue (petsValue [(.text "Pet", pet)]) =
      .ok (petsDocument [("Pet", pet)]) := rfl
  have hdoc' : Document.ofValue (petsValue []) = .ok (petsDocument []) := rfl
  have hschemas : (petsDocument [("Pet", pet)]).schemas = [("Pet", pet)] := rfl
  obtain ⟨reg, hreg, hreg_entries, hbare⟩ := Document.exists_registry_primitive .integer hschemas
  have hreg' : (petsDocument []).registry = .ok (.ofPairs []) := Document.registry_eq_ok _ rfl
  obtain ⟨p, hp⟩ := exists_generate_pets hdoc (by decide) hreg hbare
  obtain ⟨p', hp'⟩ := exists_generate_pets hdoc' (by decide) hreg' (.of_entries_eq_nil rfl)
  obtain ⟨_, _, found, h₁, h₂, hfound, -, hmethods⟩ :=
    method_eq_of_agreesBeyondSchemas.2 hp hp' hdoc hdoc' ⟨rfl, rfl, rfl, rfl, rfl⟩
  cases hreg.symm.trans h₁
  cases hreg'.symm.trans h₂
  cases hfound.symm.trans (petsDocument_endpoints _)
  refine ⟨reg, _, ?_, rfl, _, rfl, hmethods⟩
  rw [Registry.names, hreg_entries]
  rfl

end TypedClient
