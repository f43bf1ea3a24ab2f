import TypedClient.Proofs.Document.Complaints
import TypedClient.Proofs.Lookup

/-!
# Descriptions written back

Validation is a projection. A description that was accepted is normal: each of its names is there
once (`Document.Normal`). Written back as a value (`Document.toValue`), a normal description is
accepted and gives itself (`Document.Normal.ofValue_toValue`). What stands under its paths and named
parts is carried over as it is (`Document.Carries`), and what is not declared has no influence
(`Document.ofValue_eq_of_declaresAlike`). With what is said about complaints this is
`Document.ofValue_fieldwise`.
-/

namespace TypedClient

open Checked Validation

/-! ## Writing back -/

namespace Value

/-- A text that may be missing, as `null`. -/
def ofOptional : Option String → Value
  | none => .null
  | some s => .text s

/-- A map with texts as keys. -/
def ofEntries {α : Type} (write : α → Value) (entries : List (String × α)) : Value :=
  .map (entries.map fun p => (.text p.1, write p.2))

end Value

open Value

def Info.toValue (i : Info) : Value :=
  .map [
    (.text "title", .text i.title),
    (.text "version", .text i.version),
    (.text "description", ofOptional i.description)]

def Server.toValue (s : Server) : Value :=
  .map [(.text "url", .text s.url), (.text "description", ofOptional s.description)]

def Components.toValue (c : Components) : Value :=
  .map [
    (.text "schemas", ofEntries id c.schemas),
    (.text "parameters", ofEntries id c.parameters)]

/-- The value with all fields of a description; what is missing is `null`. -/
def Document.toValue (doc : Document) : Value :=
  .map [
    (.text "openapi", .text doc.format),
    (.text "info", doc.info.toValue),
    (.text "servers", .list (doc.servers.map Server.toValue)),
    (.text "paths", ofEntries (ofEntries id) doc.paths),
    (.text "components", (doc.components.map Components.toValue).getD .null)]

namespace Validation

variable {α : Type} {rule : TextRule} {read : List String → Value → Checked α}
  {place : List String}

/-- A map with distinct texts as keys is accepted if its values are, and gives what they give. -/
theorem map_ofEntries {write : α → Value} {entries : List (String × α)}
    (hnodup : (Assoc.names entries).Nodup)
    (hread : ∀ p ∈ entries, ∀ place, read place (write p.2) = .ok p.2) :
    map rule read place (ofEntries write entries) = .ok entries := by
  refine map_eq_ok.2 ⟨_, entries, rfl, ?_, Assoc.ofPairs_of_nodup hnodup⟩
  rw [List.forall₂_map_left_iff, List.forall₂_same]
  intro p hp
  have hkey : rule.read? (.text p.1) = some p.1 := by cases rule <;> rfl
  exact entry_eq_ok.2 ⟨hkey, hread p hp _⟩

theorem info_toValue (i : Info) : info place i.toValue = .ok i := by
  obtain ⟨title, version, description⟩ := i
  cases description <;> rfl

theorem server_toValue (s : Server) : server place s.toValue = .ok s := by
  obtain ⟨url, description⟩ := s
  cases description <;> rfl

theorem servers_toValue (servers : List Server) :
    Validation.servers place (.list (servers.map Server.toValue)) = .ok servers := by
  -- The position of a server shows in complaints only.
  have hread : (servers.map Server.toValue).mapIdx
      (fun i v => server (place ++ [toString i]) v) = servers.map .ok := by
    refine List.ext_getElem (by simp) fun i _ _ => ?_
    simp only [List.getElem_mapIdx, List.getElem_map, server_toValue]
  refine all_eq_ok.2 ?_
  rw [hread, List.forall₂_map_left_iff, List.forall₂_same]
  exact fun _ _ => rfl

theorem components_toValue {c : Components} (hschemas : (Assoc.names c.schemas).Nodup)
    (hparameters : (Assoc.names c.parameters).Nodup) :
    Validation.components place c.toValue = .ok c :=
  components_eq_ok.2 ⟨map_ofEntries hschemas fun _ _ _ => rfl,
    map_ofEntries hparameters fun _ _ _ => rfl⟩

end Validation

namespace Document

/-- A description in which each name is there once. -/
structure Normal (doc : Document) : Prop where
  paths : (Assoc.names doc.paths).Nodup
  entries : ∀ p ∈ doc.paths, (Assoc.names p.2).Nodup
  schemas : (Assoc.names doc.schemas).Nodup
  parameters : (Assoc.names doc.parameters).Nodup

variable {raw : Value} {doc : Document} {fields fields' : List (Value × Value)}

theorem normal_of_ofValue (h : ofValue raw = .ok doc) : doc.Normal where
  paths := nodup_names_paths h
  entries := by
    obtain ⟨fields, -, hcheck⟩ := ofValue_eq_ok.1 h
    obtain ⟨-, -, -, hpaths, -⟩ := check_eq_ok.1 hcheck
    obtain ⟨v, -, hv⟩ := required_eq_ok.1 hpaths
    obtain ⟨es, pairs, -, hpairs, heq⟩ := map_eq_ok.1 hv
    -- A path that stands after keys have become equal is one of those that were read.
    intro p hp
    rw [← heq] at hp
    obtain ⟨e, -, he⟩ := exists_mem_of_forall₂ hpairs (Assoc.mem_of_mem_ofPairs hp)
    exact nodup_names_of_map (entry_eq_ok.1 he).2
  schemas := nodup_names_schemas h
  parameters := nodup_names_parameters h

/-- A normal description that is written back is accepted, and is the same. -/
theorem Normal.ofValue_toValue (h : doc.Normal) : ofValue doc.toValue = .ok doc := by
  have hcomponents : nullable (Validation.components ["components"])
      ((doc.components.map Components.toValue).getD .null) = .ok doc.components := by
    have hschemas := h.schemas
    have hparameters := h.parameters
    rw [Document.schemas] at hschemas
    rw [Document.parameters] at hparameters
    cases hc : doc.components with
    | none => rfl
    | some c =>
      rw [hc] at hschemas hparameters
      exact Checked.map_eq_ok.2 ⟨c, components_toValue hschemas hparameters, rfl⟩
  have hpaths : Validation.paths ["paths"] (ofEntries (ofEntries id) doc.paths) = .ok doc.paths :=
    map_ofEntries h.paths fun p hp _ => map_ofEntries (h.entries p hp) fun _ _ _ => rfl
  exact ofValue_eq_ok.2 ⟨_, rfl, check_eq_ok.2
    ⟨rfl, info_toValue doc.info, servers_toValue doc.servers, hpaths, hcomponents⟩⟩

/-! ## What is carried over -/

/-- Entries under texts that stand for the entries of a map, each value for one and in their order.
Of entries whose keys have become equal the last one stands, in the place of the first. -/
def Carried {α : Type} (rule : TextRule) (R : Value → α → Prop) (es : List (Value × Value))
    (entries : List (String × α)) : Prop :=
  ∃ pairs, List.Forall₂ (fun e p => rule.read? e.1 = some p.1 ∧ R e.2 p.2) es pairs ∧
    entries = Assoc.ofPairs pairs

/-- The values under the paths and the named parts are those of the map that is read. -/
structure Carries (doc : Document) (fields : List (Value × Value)) : Prop where
  paths : Carried .numbersToo (fun v => Carried .numbersToo Eq (Form.entriesOf v))
    (Form.entriesOf (Value.get fields "paths")) doc.paths
  schemas : Carried .textOnly Eq
    (Form.entriesOf (Value.get (Form.entriesOf (Value.get fields "components")) "schemas"))
    doc.schemas
  parameters : Carried .textOnly Eq
    (Form.entriesOf (Value.get (Form.entriesOf (Value.get fields "components")) "parameters"))
    doc.parameters

theorem carried_of_map {α : Type} {rule : TextRule} {read : List String → Value → Checked α}
    {R : Value → α → Prop} {place : List String} {v : Value} {entries : List (String × α)}
    (hread : ∀ place v a, read place v = .ok a → R v a)
    (h : map rule read place v = .ok entries) : Carried rule R (Form.entriesOf v) entries := by
  obtain ⟨es, pairs, rfl, hpairs, rfl⟩ := map_eq_ok.1 h
  refine ⟨pairs, hpairs.imp fun e p he => ?_, rfl⟩
  obtain ⟨hkey, hvalue⟩ := entry_eq_ok.1 he
  exact ⟨hkey, hread _ _ _ hvalue⟩

theorem carried_of_anything {rule : TextRule} {place : List String} {v : Value}
    {entries : List (String × Value)} (h : map rule anything place v = .ok entries) :
    Carried rule Eq (Form.entriesOf v) entries :=
  carried_of_map (fun _ _ _ hvalue => Except.ok.inj hvalue) h

theorem carried_of_withDefault {rule : TextRule} {place : List String}
    {es : List (Value × Value)} {key : String} {entries : List (String × Value)}
    (h : withDefault [] (map rule anything place) (Value.find? es key) = .ok entries) :
    Carried rule Eq (Form.entriesOf (Value.get es key)) entries := by
  rw [Value.get]
  generalize Value.find? es key = v at h ⊢
  cases v with
  | none =>
    cases h
    exact ⟨[], .nil, rfl⟩
  | some v => exact carried_of_anything h

theorem carries_of_ofValue (h : ofValue (.map fields) = .ok doc) : doc.Carries fields where
  paths := by
    obtain ⟨_, ⟨rfl⟩, hcheck⟩ := ofValue_eq_ok.1 h
    obtain ⟨-, -, -, hpaths, -⟩ := check_eq_ok.1 hcheck
    obtain ⟨v, hfind, hv⟩ := required_eq_ok.1 hpaths
    rw [Value.get, hfind]
    exact carried_of_map (fun _ _ _ => carried_of_anything) hv
  schemas := carried_of_withDefault (components_of_ofValue h).1
  parameters := carried_of_withDefault (components_of_ofValue h).2

end Document

/-! ## What is not declared -/

namespace Value

/-- Values that agree on some keys: they are the same, or maps that differ under other keys only. -/
inductive AgreesOn (keys : List String) : Value → Value → Prop
  | same (v : Value) : AgreesOn keys v v
  | map {es es' : List (Value × Value)} : (∀ key ∈ keys, find? es' key = find? es key) →
    AgreesOn keys (.map es) (.map es')

inductive ServersAgree : Value → Value → Prop
  | same (v : Value) : ServersAgree v v
  | list {items items' : List Value} :
    List.Forall₂ (AgreesOn ["url", "description"]) items items' →
    ServersAgree (.list items) (.list items')

end Value

namespace Validation

variable {place : List String} {v v' : Value}

theorem info_eq_of_agreesOn (h : AgreesOn ["title", "version", "description"] v v') :
    info place v' = info place v := by
  cases h with
  | same => rfl
  | map h =>
    simp only [info, h "title" (by decide), h "version" (by decide), h "description" (by decide)]

theorem server_eq_of_agreesOn (h : AgreesOn ["url", "description"] v v') :
    server place v' = server place v := by
  cases h with
  | same => rfl
  | map h => simp only [server, h "url" (by decide), h "description" (by decide)]

theorem components_eq_of_agreesOn (h : AgreesOn ["schemas", "parameters"] v v') :
    components place v' = components place v := by
  cases h with
  | same => rfl
  | map h => simp only [components, h "schemas" (by decide), h "parameters" (by decide)]

theorem servers_eq_of_agree (h : ServersAgree v v') :
    Validation.servers place v' = Validation.servers place v := by
  cases h with
  | same => rfl
  | list hitems =>
    refine congrArg all (List.ext_getElem ?_ fun i hi hi' => ?_)
    · rw [List.length_mapIdx, List.length_mapIdx, hitems.length_eq]
    · rw [List.getElem_mapIdx, List.getElem_mapIdx]
      exact server_eq_of_agreesOn (hitems.get _ _)

end Validation

namespace Document

namespace Field

/-- Values of a field that hold the same under all keys that are declared for it. -/
def Agrees : Field → Value → Value → Prop
  | .openapi => Eq
  | .info => AgreesOn ["title", "version", "description"]
  | .servers => ServersAgree
  | .paths => Eq
  | .components => AgreesOn ["schemas", "parameters"]

theorem check_eq_of_agrees {field : Field} {v v' : Option Value}
    (h : Option.Rel field.Agrees v v') : field.check v' = field.check v := by
  cases h with
  | none => rfl
  | @some v v' hv =>
    cases field with
    | openapi => exact hv ▸ rfl
    | info => exact info_eq_of_agreesOn hv
    | servers => exact servers_eq_of_agree hv
    | paths => exact hv ▸ rfl
    | components =>
      have hread : Validation.components ["components"] v' =
          Validation.components ["components"] v := components_eq_of_agreesOn hv
      cases hv with
      | same => rfl
      | map => exact congrArg (Except.map some) hread

end Field

/-- Maps that hold the same under all keys that are declared for a description. -/
def DeclaresAlike (fields fields' : List (Value × Value)) : Prop :=
  ∀ field : Field,
    Option.Rel field.Agrees (Value.find? fields field.key) (Value.find? fields' field.key)

variable {fields fields' : List (Value × Value)}

theorem ofValue_eq_of_declaresAlike (h : DeclaresAlike fields fields') :
    ofValue (.map fields') = ofValue (.map fields) := by
  have hfield (field : Field) : field.check (Value.find? fields' field.key) =
      field.check (Value.find? fields field.key) := Field.check_eq_of_agrees (h field)
  have hcheck : check fields' = check fields :=
    congrArg₂ (fun a b => (both a b).map _) (hfield .openapi) (congrArg₂ both (hfield .info)
      (congrArg₂ both (hfield .servers) (congrArg₂ both (hfield .paths) (hfield .components))))
  rw [ofValue, ofValue, hcheck]

/-! ## Validation -/

/-- Validation of a map. It is refused with the complaints about its fields, one field after
another, and accepted if there are none. Each complaint names its field, and a change of one field
changes the complaints about it only. An accepted description is what it gives when it is written
back; it carries over the values of its paths and named parts, and what is not declared has no
influence. -/
theorem ofValue_fieldwise (fields : List (Value × Value)) :
    (∀ fault, ofValue (.map fields) = .error fault ↔
      fault = .invalid (complaintsAbout fields) ∧ complaintsAbout fields ≠ []) ∧
    (∀ fault, ofValue (.map fields) = .error fault → fault.reasons = Field.all.flatMap
      fun field => (field.check (Value.find? fields field.key)).complaints.map Complaint.message) ∧
    ((∃ doc, ofValue (.map fields) = .ok doc) ↔
      ∀ field : Field, (field.check (Value.find? fields field.key)).complaints = []) ∧
    (∀ field : Field, ∀ m ∈ (field.check (Value.find? fields field.key)).complaints,
      [field.key] <+: m.place) ∧
    (∀ (field : Field) (fields' : List (Value × Value)), (∀ other : Field, other ≠ field →
        Value.find? fields' other.key = Value.find? fields other.key) →
      ∃ before after,
        complaintsAbout fields =
          before ++ (field.check (Value.find? fields field.key)).complaints ++ after ∧
        complaintsAbout fields' =
          before ++ (field.check (Value.find? fields' field.key)).complaints ++ after) ∧
    (∀ doc, ofValue (.map fields) = .ok doc →
      ofValue doc.toValue = .ok doc ∧ doc.Carries fields) ∧
    ∀ fields', DeclaresAlike fields fields' → ofValue (.map fields') = ofValue (.map fields) := by
  refine ⟨fun _ => ofValue_eq_error_iff, fun fault hfault => ?_, ?_,
    fun field => (field.about _).within, fun _ _ => complaintsAbout_of_change,
    fun doc hdoc => ?_, fun _ => ofValue_eq_of_declaresAlike⟩
  · obtain ⟨rfl, -⟩ := ofValue_eq_error_iff.1 hfault
    rw [DocumentFault.reasons, complaintsAbout, List.map_flatMap]
  · rw [exists_ofValue_iff, complaintsAbout, List.flatMap_eq_nil_iff]
    exact ⟨fun h field => h field field.mem_all, fun h field _ => h field⟩
  · exact ⟨(normal_of_ofValue hdoc).ofValue_toValue, carries_of_ofValue hdoc⟩

/-- Numbers in place of texts, two keys of one text, a missing description, and more than is
declared. -/
def numberedFields : List (Value × Value) := [
  (.text "openapi", .int 3),
  (.text "info", .map [(.text "title", .text "Pets"), (.text "version", .int 1),
    (.text "contact", .null)]),
  (.text "servers", .list [.map [(.text "url", .text "/v1"), (.text "description", .null)]]),
  (.text "paths", .map [(.int 1, .map []), (.text "/pets", .map [(.int 2, .list [.null])]),
    (.text "1", .map [(.text "get", .bool true)])]),
  (.text "components", .map [(.text "schemas", .map [(.text "Pet", .int 7)])]),
  (.text "tags", .list [])]

/-- Faults in all fields but two: a missing one, two in the servers and one in the paths. -/
def faultyFields : List (Value × Value) := [
  (.text "paths", .map [(.text "/pets", .int 1)]),
  (.text "info", .map [(.text "title", .text "Pets"), (.text "version", .int 1)]),
  (.text "servers", .list [.map [(.text "url", .int 1)], .null]),
  (.text "components", .null)]

theorem ofValue_fieldwise_numbered :
    (∃ doc, ofValue (.map numberedFields) = .ok doc ∧
      doc.format = "3" ∧
      doc.paths = [("1", [("get", .bool true)]), ("/pets", [("2", .list [.null])])] ∧
      doc.schemas = [("Pet", .int 7)] ∧
      ofValue doc.toValue = .ok doc ∧ doc.Carries numberedFields ∧
      ofValue (.map ((.text "tags", .null) :: numberedFields)) = .ok doc) ∧
    (complaintsAbout faultyFields).map Complaint.message = [
      "openapi: Field required",
      "servers.0.url: Input should be a valid string",
      "servers.1: Input should be a valid dictionary or instance of OpenApiServer",
      "paths./pets: Input should be a valid dictionary"] ∧
    ofValue (.map faultyFields) = .error (.invalid (complaintsAbout faultyFields)) ∧
    ∃ before after,
      complaintsAbout faultyFields = before ++ [⟨["openapi"], .present⟩] ++ after ∧
      complaintsAbout ((.text "openapi", .int 3) :: faultyFields) = before ++ [] ++ after := by
  obtain ⟨doc, hdoc⟩ : ∃ doc, ofValue (.map numberedFields) = .ok doc := ⟨_, rfl⟩
  obtain ⟨-, -, -, -, -, haccepted, halike⟩ := ofValue_fieldwise numberedFields
  obtain ⟨hagain, hcarries⟩ := haccepted doc hdoc
  have htags : DeclaresAlike numberedFields ((.text "tags", .null) :: numberedFields)
    | .openapi => .some rfl
    | .info => .some (.same _)
    | .servers => .some (.same _)
    | .paths => .some rfl
    | .components => .some (.same _)
  obtain ⟨hrefused, -, -, -, hchange, -, -⟩ := ofValue_fieldwise faultyFields
  have hmessages : (complaintsAbout faultyFields).map Complaint.message = [
      "openapi: Field required",
      "servers.0.url: Input should be a valid string",
      "servers.1: Input should be a valid dictionary or instance of OpenApiServer",
      "paths./pets: Input should be a valid dictionary"] := rfl
  have hne : complaintsAbout faultyFields ≠ [] := by
    intro hnil
    rw [hnil] at hmessages
    cases hmessages
  refine ⟨⟨doc, hdoc, ?_, ?_, ?_, hagain, hcarries, (halike _ htags).trans hdoc⟩, hmessages,
    (hrefused _).2 ⟨rfl, hne⟩, ?_⟩
  · cases hdoc
    rfl
  · cases hdoc
    rfl
  · cases hdoc
    rfl
  · refine hchange .openapi _ fun other hother => ?_
    cases other with
    | openapi => exact absurd rfl hother
    | _ => rfl

end Document

end TypedClient
