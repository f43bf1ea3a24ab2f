import Mathlib.Data.Finset.Card
import Mathlib.Data.List.FinRange
import TypedClient.Proofs.Accepted
import TypedClient.Proofs.Methods.Calls
import TypedClient.Proofs.Methods.ErrorCodes

/-!
# Repeated methods

The class has one method for each endpoint, in the order of the endpoints, and can be written unless
the code of a response is a text of digits that is no numeral or a signature lists a choice without
a text (`exists_clientClass_iff`). A notice
goes with each endpoint whose name an earlier one has (`repeatedMethods_eq`), so notices and
distinct names together are as many as the endpoints (`length_repeatedMethods`), and without notices
all names are distinct.
-/

namespace TypedClient

open Text

/-- The name of the method of an endpoint. -/
def Endpoint.methodName (e : Endpoint) : String :=
  Name.method e.operationId

/-- The notice that the name of the method is taken. -/
def Endpoint.repetition (e : Endpoint) : Notice :=
  .repeatedMethod e.methodName e.verb e.path

/-- The text is the method of the endpoint: a comment and a member with the name of the method. -/
def Method.Introduces (reg : Registry) (level : Int) (e : Endpoint) (text : String) : Prop :=
  Method.text reg e level = .ok text ∧ ∃ rest, text =
    DocComment.text reg e level ++ indent level ++ "async " ++ e.methodName ++ "(" ++ rest

theorem Method.introduces_of_text {reg : Registry} {level : Int} {e : Endpoint} {text : String}
    (h : Method.text reg e level = .ok text) : Introduces reg level e text := by
  obtain ⟨error, -, rfl⟩ := exists_of_map_eq_ok h
  obtain ⟨rest, hcode⟩ := Call.exists_code_eq reg e error level
  refine ⟨h, rest, ?_⟩
  rw [hcode]
  simp only [Endpoint.methodName, String.append_assoc]

namespace Interface

/-! ## The methods of the class -/

/-- The members that the class has whatever the endpoints are. -/
def scaffolding (i : Interface) (level : Int) : String :=
  i.fields level ++ String.join (scaffold.map (indentBlock · level))

/-- The class up to the methods of the endpoints. -/
def classOpening (i : Interface) (level : Int) : String :=
  indent level ++ "export class " ++ i.className ++ " \x7b\n" ++ i.scaffolding (level + 1)

variable {i : Interface} {endpoints : List Endpoint} {level : Int} {taken : List String}

theorem exists_clientClass_iff : (∃ text, i.clientClass endpoints level = .ok text) ↔
    ∀ e ∈ endpoints, (∀ code ∈ Assoc.names e.responses, ¬ Signature.Unreadable code) ∧
      ∀ v ∈ Signature.literals i.registry e, v.hasText = true := by
  have hfails := fails_clientClass i endpoints level
  simp only [Signature.noNumeral_iff] at hfails
  constructor
  · rintro ⟨text, htext⟩ e he
    obtain ⟨htexts, -⟩ := clientClass_eq_ok.1 htext
    refine ⟨fun code hcode hunreadable => ?_, htexts e he⟩
    rw [htext] at hfails
    exact not_fails_ok _ (hfails.2 (.inr ⟨e, he, code, hcode, hunreadable⟩))
  · intro hread
    refine exists_of_not_fails fun h => ?_
    rcases hfails.1 h with ⟨e, he, v, hv, hnone⟩ | ⟨e, he, code, hcode, hunreadable⟩
    · exact Bool.eq_false_iff.1 hnone ((hread e he).2 v hv)
    · exact (hread e he).1 code hcode hunreadable

/-- Between its opening and its end the class has the methods of the endpoints, one for one. -/
theorem exists_methods {text : String} (h : i.clientClass endpoints level = .ok text) :
    ∃ methods, text =
        i.classOpening level ++ String.join methods ++ (indent level ++ "\x7d\n\n") ∧
      List.Forall₂ (Method.Introduces i.registry (level + 1)) endpoints methods := by
  obtain ⟨-, methods, hmethods, rfl⟩ := clientClass_eq_ok.1 h
  refine ⟨methods, ?_, (forall₂_of_mapM_eq_ok hmethods).imp fun _ _ => Method.introduces_of_text⟩
  simp only [classText, classOpening, scaffolding, String.append_assoc]

/-! ## The notices about names -/

/-- An earlier endpoint has the name of the method. -/
def Repeats (endpoints : List Endpoint) (k : Fin endpoints.length) : Prop :=
  ∃ j < k, endpoints[j].methodName = endpoints[k].methodName

instance (endpoints : List Endpoint) : DecidablePred (Repeats endpoints) :=
  fun k => inferInstanceAs (Decidable (∃ j, j < k ∧ _))

/-- The endpoints with the name of an earlier one, in order. -/
def repeating (endpoints : List Endpoint) : List Endpoint :=
  ((List.finRange endpoints.length).filter (Repeats endpoints ·)).map (endpoints[·])

theorem not_repeats_zero (e : Endpoint) (rest : List Endpoint) :
    ¬ Repeats (e :: rest) (0 : Fin (rest.length + 1)) :=
  fun ⟨j, hj, _⟩ => absurd hj (Nat.not_lt_zero j)

theorem repeats_succ (e : Endpoint) (rest : List Endpoint) (k : Fin rest.length) :
    Repeats (e :: rest) k.succ ↔ e.methodName = rest[k].methodName ∨ Repeats rest k := by
  have hzero : (0 : Fin (rest.length + 1)) < k.succ := Nat.succ_pos k
  have hcases : Repeats (e :: rest) k.succ ↔
      ((0 : Fin (rest.length + 1)) < k.succ ∧ e.methodName = rest[k].methodName) ∨
        ∃ j : Fin rest.length, j.succ < k.succ ∧ rest[j].methodName = rest[k].methodName :=
    Fin.exists_fin_succ
  rw [hcases]
  simp only [hzero, true_and, Fin.succ_lt_succ_iff]
  rfl

/-- With some names taken from the start, the notices are about the endpoints with one of these or
with the name of an earlier endpoint. -/
theorem repeatedMethods_eq_filter : repeatedMethods taken endpoints =
    ((List.finRange endpoints.length).filter fun k =>
      endpoints[k].methodName ∈ taken ∨ Repeats endpoints k).map (endpoints[·].repetition) := by
  induction endpoints generalizing taken with
  | nil => rfl
  | cons e rest ih =>
    have hfirst : ((e :: rest)[(0 : Fin (rest.length + 1))].methodName ∈ taken ∨
        Repeats (e :: rest) (0 : Fin (rest.length + 1))) ↔ e.methodName ∈ taken :=
      or_iff_left (not_repeats_zero e rest)
    have hlater (k : Fin rest.length) :
        (rest[k].methodName ∈ taken ∨ Repeats (e :: rest) k.succ) ↔
          rest[k].methodName ∈ e.methodName :: taken ∨ Repeats rest k := by
      rw [repeats_succ, List.mem_cons, eq_comm, or_left_comm, or_assoc]
    have hrest : repeatedMethods (e.methodName :: taken) rest =
        (((List.finRange rest.length).map Fin.succ).filter fun k : Fin (rest.length + 1) =>
          (e :: rest)[k].methodName ∈ taken ∨ Repeats (e :: rest) k).map
            fun k : Fin (rest.length + 1) => (e :: rest)[k].repetition := by
      rw [ih, List.filter_map, List.map_map]
      refine congrArg (List.map _) (List.filter_congr fun k _ => ?_)
      exact decide_eq_decide.2 (hlater k).symm
    have hcons : repeatedMethods taken (e :: rest) =
        (if taken.contains e.methodName then [e.repetition] else []) ++
          repeatedMethods (e.methodName :: taken) rest := rfl
    have hrange : List.finRange (e :: rest).length =
        (0 : Fin (rest.length + 1)) :: (List.finRange rest.length).map Fin.succ :=
      List.finRange_succ
    rw [hcons, hrest, hrange, List.filter_cons]
    by_cases hmem : e.methodName ∈ taken
    · have htaken : taken.contains e.methodName = true := List.contains_iff_mem.2 hmem
      rw [if_pos htaken, if_pos (decide_eq_true (hfirst.2 hmem))]
      rfl
    · have htaken : ¬ taken.contains e.methodName = true := mt List.contains_iff_mem.1 hmem
      rw [if_neg htaken, if_neg (mt of_decide_eq_true (mt hfirst.1 hmem))]
      rfl

/-- The notices are about the endpoints with the name of an earlier one. -/
theorem repeatedMethods_eq : repeatedMethods [] endpoints =
    (repeating endpoints).map Endpoint.repetition := by
  rw [repeatedMethods_eq_filter, repeating, List.map_map]
  simp only [List.not_mem_nil, false_or]
  rfl

/-- A name is new or there is a notice about it. -/
theorem length_repeatedMethods_taken (taken : List String) (endpoints : List Endpoint) :
    (repeatedMethods taken endpoints).length +
      ((endpoints.map Endpoint.methodName).toFinset \ taken.toFinset).card = endpoints.length := by
  induction endpoints generalizing taken with
  | nil => simp [repeatedMethods]
  | cons e rest ih =>
    have hcons : repeatedMethods taken (e :: rest) =
        (if taken.contains e.methodName then [e.repetition] else []) ++
          repeatedMethods (e.methodName :: taken) rest := rfl
    have hrest := ih (e.methodName :: taken)
    rw [List.toFinset_cons] at hrest
    rw [hcons, List.map_cons, List.toFinset_cons, List.length_append, List.length_cons, ← hrest]
    by_cases hmem : e.methodName ∈ taken
    · have htaken : insert e.methodName taken.toFinset = taken.toFinset :=
        Finset.insert_eq_of_mem (List.mem_toFinset.2 hmem)
      rw [if_pos (List.contains_iff_mem.2 hmem), htaken,
        Finset.insert_sdiff_of_mem _ (List.mem_toFinset.2 hmem), List.length_singleton]
      omega
    · have hnew : insert e.methodName (rest.map Endpoint.methodName).toFinset \ taken.toFinset =
          insert e.methodName ((rest.map Endpoint.methodName).toFinset \
            insert e.methodName taken.toFinset) := by
        ext name
        simp only [Finset.mem_sdiff, Finset.mem_insert, List.mem_toFinset]
        by_cases hname : name = e.methodName
        · simp [hname, hmem]
        · simp [hname]
      rw [if_neg (mt List.contains_iff_mem.1 hmem), hnew, Finset.card_insert_of_notMem (by simp),
        List.length_nil]
      omega

theorem length_repeatedMethods (endpoints : List Endpoint) :
    (repeatedMethods [] endpoints).length + (endpoints.map Endpoint.methodName).toFinset.card =
      endpoints.length := by
  rw [← length_repeatedMethods_taken [] endpoints, List.toFinset_nil, Finset.sdiff_empty]

theorem repeatedMethods_eq_nil_iff :
    repeatedMethods [] endpoints = [] ↔ (endpoints.map Endpoint.methodName).Nodup := by
  have hcount := length_repeatedMethods endpoints
  have hnodup : (endpoints.map Endpoint.methodName).toFinset.card = endpoints.length ↔
      (endpoints.map Endpoint.methodName).Nodup := by
    rw [← Multiset.coe_nodup, ← Multiset.toFinset_card_eq_card_iff_nodup, Multiset.coe_card,
      List.length_map]
    rfl
  rw [← hnodup, ← List.length_eq_zero_iff]
  omega

/-- The class can be written if and only if no code among the responses is a text of digits that is
no numeral and all choices that the signatures list have texts. Then it has one method for each
endpoint, in the order of the endpoints. For every list of endpoints the notices are about those
with the name of an earlier one, in order; with the distinct names they are as many as the
endpoints, and without them all names are distinct. The notices of a generation are those about its
endpoints and then these. -/
theorem repeated_methods_reported (i : Interface) (endpoints : List Endpoint) (level : Int) :
    ((∃ text, i.clientClass endpoints level = .ok text) ↔
      ∀ e ∈ endpoints, (∀ code ∈ Assoc.names e.responses, ¬ Signature.Unreadable code) ∧
        ∀ v ∈ Signature.literals i.registry e, v.hasText = true) ∧
    (∀ text, i.clientClass endpoints level = .ok text → ∃ methods,
      text = i.classOpening level ++ String.join methods ++ (indent level ++ "\x7d\n\n") ∧
      List.Forall₂ (Method.Introduces i.registry (level + 1)) endpoints methods) ∧
    repeatedMethods [] endpoints = (repeating endpoints).map Endpoint.repetition ∧
    (repeatedMethods [] endpoints).length + (endpoints.map Endpoint.methodName).toFinset.card =
      endpoints.length ∧
    (repeatedMethods [] endpoints = [] ↔ (endpoints.map Endpoint.methodName).Nodup) ∧
    ∀ raw options project notices, generate raw options = .ok (project, notices) →
      ∃ doc reg found text, Yields raw options doc reg found text ∧
        notices = found.notices ++ repeatedMethods [] found.items := by
  refine ⟨exists_clientClass_iff, fun text => exists_methods, repeatedMethods_eq,
    length_repeatedMethods endpoints, repeatedMethods_eq_nil_iff,
    fun raw options project notices h => ?_⟩
  obtain ⟨doc, reg, found, text, hyields, -⟩ := exists_yields h
  rw [hyields.generate_eq] at h
  exact ⟨doc, reg, found, text, hyields, (congrArg Prod.snd (Except.ok.inj h)).symm⟩

/-- Two operations with identifiers that give the same name; the second has one response. -/
def listingsValue (code : String) : Value :=
  .map [
    (.text "openapi", .text "3.0.0"),
    (.text "info", .map [(.text "title", .text "Pets"), (.text "version", .text "1")]),
    (.text "paths", .map [
      (.text "/pets", .map [(.text "get", .map [(.text "operationId", .text "listPets")])]),
      (.text "/animals", .map [(.text "get", .map [
        (.text "operationId", .text "list-pets"),
        (.text "responses", .map [(.text code, .map [])])])])])]

def listingsDocument (code : String) : Document where
  format := "3.0.0"
  info := ⟨"Pets", "1", none⟩
  servers := []
  paths := [
    ("/pets", [("get", .map [(.text "operationId", .text "listPets")])]),
    ("/animals", [("get", .map [
      (.text "operationId", .text "list-pets"),
      (.text "responses", .map [(.text code, .map [])])])])]
  components := none

/-- An operation without parameters and body. -/
def listing (path operationId : String) (responses : List (String × Response)) : Endpoint where
  verb := .get
  path := path
  operationId := operationId
  summary := none
  description := none
  parameters := []
  requestBody := none
  responses := responses
  tags := none

def listings (code : String) : List Endpoint :=
  [listing "/pets" "listPets" [], listing "/animals" "list-pets" [(code, ⟨"", []⟩)]]

/-- Both methods are written, and there is a notice about the second. -/
theorem repeated_methods_reported_listings :
    ∃ (i : Interface) (text : String) (methods : List String) (project : Project),
      i.clientClass (listings "default") 0 = .ok text ∧
      text = i.classOpening 0 ++ String.join methods ++ (indent 0 ++ "\x7d\n\n") ∧
      List.Forall₂ (Method.Introduces i.registry 1) (listings "default") methods ∧
      repeatedMethods [] (listings "default") = [.repeatedMethod "list_pets" .get "/animals"] ∧
      ¬ ((listings "default").map Endpoint.methodName).Nodup ∧
      generate (listingsValue "default") .default =
        .ok (project, [.repeatedMethod "list_pets" .get "/animals"]) := by
  have hdoc : Document.ofValue (listingsValue "default") = .ok (listingsDocument "default") := rfl
  have hfound : (listingsDocument "default").endpoints = .ok ⟨listings "default", []⟩ := rfl
  let reg : Registry := .ofPairs []
  have hreg : (listingsDocument "default").registry = .ok reg := Document.registry_eq_ok _ rfl
  have hbare : reg.IsBare := .of_entries_eq_nil rfl
  have hcodes : ∀ e ∈ listings "default", ∀ code ∈ Assoc.names e.responses, ¬ NoNumeral code := by
    have hword : ¬ NoNumeral "default" := fun h => absurd h.1 (by decide +kernel)
    simp [listings, listing, Assoc.names, hword]
  have hschemas : ∀ e ∈ listings "default", ∀ s ∈ Signature.schemas e,
      s.literals reg reg.names = [] ∧ reg.firstChoice? (some s) = none := by
    have hnone : (listings "default").flatMap Signature.schemas = [] := rfl
    intro e he s hs
    have hmem := List.mem_flatMap.2 ⟨e, he, hs⟩
    rw [hnone] at hmem
    cases hmem
  have hexists : ∃ p, generate (listingsValue "default") .default = .ok p :=
    exists_generate_eq_ok hdoc (by decide) hreg hfound hcodes fun v hv =>
      absurd hv (hbare.not_showsChoice hschemas)
  obtain ⟨⟨project, notices⟩, hgenerate⟩ := hexists
  obtain ⟨-, hmethods, hnotices, -, hnodup, hgenerated⟩ :=
    repeated_methods_reported ((listingsDocument "default").interface none reg)
      (listings "default") 0
  obtain ⟨doc, reg', found, text, hyields, hreported⟩ := hgenerated _ _ _ _ hgenerate
  cases hdoc.symm.trans hyields.document
  cases hreg.symm.trans hyields.registry
  cases hfound.symm.trans hyields.endpoints
  obtain ⟨methods, hlayout, hintroduced⟩ := hmethods text hyields.clientClass
  have hnotice : repeatedMethods [] (listings "default") =
      [.repeatedMethod "list_pets" .get "/animals"] := hnotices.trans rfl
  rw [hnotice] at hnodup hreported
  refine ⟨_, text, methods, project, hyields.clientClass, hlayout, hintroduced, hnotice,
    fun h => absurd (hnodup.2 h) (by simp), ?_⟩
  rw [hgenerate, hreported]
  rfl

/-- With a superscript digit among the codes the class cannot be written, whatever else it is
written from. -/
theorem not_exists_clientClass_listings :
    (listingsDocument "²").endpoints = .ok ⟨listings "²", []⟩ ∧
    (listings "²").map Endpoint.methodName = ["list_pets", "list_pets"] ∧
    (∀ (i : Interface) (level : Int), ¬ ∃ text, i.clientClass (listings "²") level = .ok text) ∧
    Fails (generate (listingsValue "²") .default) := by
  have hdoc : Description.validated (listingsValue "²") = .ok (listingsDocument "²") :=
    Description.validated_eq_ok.2 ⟨by decide, rfl⟩
  have hfound : (listingsDocument "²").endpoints = .ok ⟨listings "²", []⟩ := rfl
  have hraised : NoNumeral "²" := ⟨by decide, by decide⟩
  have hcode : ∃ e ∈ listings "²", "²" ∈ Assoc.names e.responses := by
    simp [listings, listing, Assoc.names]
  refine ⟨hfound, by decide +kernel, ?_, ?_⟩
  · rintro i level ⟨text, htext⟩
    obtain ⟨e, he, hmem⟩ := hcode
    have hfails := (fails_clientClass i _ level).2 (.inr ⟨e, he, _, hmem, hraised⟩)
    rw [htext] at hfails
    exact not_fails_ok text hfails
  · obtain ⟨operation, hoperation, hmem⟩ := (Document.exists_endpoint_code hfound).1 hcode
    exact (fails_generate hdoc .default).2
      (.inr (.inr (.inl ⟨operation, hoperation, _, hmem, hraised⟩)))

end Interface

end TypedClient
