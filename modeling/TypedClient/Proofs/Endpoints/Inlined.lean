import TypedClient.Proofs.Generated
import TypedClient.Proofs.Endpoints.Accounted
import TypedClient.Proofs.Endpoints.Rearranged

/-!
# Parameters in place of references to them

A named parameter may stand wherever it is referred to: a description with named parameters in place
of some references among the parameters of its paths and operations (`Inlines`) is accepted if the
first one is, and what is generated from it is the same. A reference is read as its target is, by
itself (`Extraction.item_eq_of_inlined`), so all that is read of lists, operations and paths agrees.
A target that is a reference itself is not followed further, and so it cannot stand for it.
-/

namespace TypedClient

open Extraction Validation

namespace Value

/-- Values under a key: they are equal, or the key is the given word and they are related. -/
inductive Under (word : String) (R : Value → Value → Prop) : Value → Value → Value → Prop
  | same (key v : Value) : Under word R key v v
  | changed {v v' : Value} : R v v' → Under word R (.text word) v v'

/-- Maps with related values under the same keys. -/
inductive Mapped (R : Value → Value → Value → Prop) : Value → Value → Prop
  | map {es es' : List (Value × Value)} : Entrywise R es es' → Mapped R (.map es) (.map es')

/-- An item among the parameters, and the same item or the named parameter it refers to. Whatever
else stands beside the reference is lost. -/
inductive Inlined (named : List (String × Value)) : Value → Value → Prop
  | same (v : Value) : Inlined named v v
  | target {fields target : List (Value × Value)} {name : String} :
    Value.get fields "$ref" = .text ("#/components/parameters/" ++ name) →
    Assoc.find? named name = some (.map target) → Value.get target "$ref" = .null →
    Inlined named (.map fields) (.map target)

inductive ListInlined (named : List (String × Value)) : Value → Value → Prop
  | list {items items' : List Value} : List.Forall₂ (Inlined named) items items' →
    ListInlined named (.list items) (.list items')

def OperationInlined (named : List (String × Value)) : Value → Value → Prop :=
  Mapped (Under "parameters" (ListInlined named))

/-- The value under a key of a path: a list of parameters or an operation. -/
def PathEntryInlined (named : List (String × Value)) (key v v' : Value) : Prop :=
  Under "parameters" (ListInlined named) key v v' ∨ OperationInlined named v v'

/-- Values under some key of a path. -/
def EntryInlined (named : List (String × Value)) (v v' : Value) : Prop :=
  ∃ key, PathEntryInlined named key v v'

def PathInlined (named : List (String × Value)) : Value → Value → Prop :=
  Mapped (PathEntryInlined named)

/-- A description with named parameters in place of some references to them. -/
def Inlines (named : List (String × Value)) : Value → Value → Prop :=
  Mapped (Under "paths" (Mapped fun _ => PathInlined named))

variable {word key : String} {R : Value → Value → Prop} {es es' : List (Value × Value)}

theorem Entrywise.find?_of_ne (h : Entrywise (Under word R) es es') (hkey : key ≠ word) :
    Value.find? es' key = Value.find? es key := by
  refine (eq_of_rel (fun v v' hv => ?_) (h.find? key)).symm
  cases hv with
  | same => rfl
  | changed => exact absurd rfl hkey

/-- What is left as it is counts as changed nowhere. -/
theorem Entrywise.refl {S : Value → Value → Value → Prop} (hS : ∀ key v, S key v v)
    (es : List (Value × Value)) : Entrywise S es es :=
  List.forall₂_same.2 fun _ _ => ⟨rfl, hS _ _⟩

end Value

open Value

namespace Extraction

variable {named : List (String × Value)} {v v' : Value} {o o' : List (Value × Value)}

theorem item_eq_of_inlined (h : Inlined named v v') : item named v = item named v' := by
  cases h with
  | same => rfl
  | target href htarget hplain =>
    -- The target is no reference, so it stands for itself, and the reference stands for it.
    rw [item_of_standsFor (.named href htarget), item_of_standsFor (.own hplain)]

theorem readParameters_eq_of_inlined (h : ListInlined named v v') :
    readParameters named v = readParameters named v' := by
  cases h with
  | list hitems =>
    have hmapM := mapM_eq_of_forall₂ (hitems.imp fun _ _ => item_eq_of_inlined)
    exact congrArg (Except.map report) hmapM

theorem readParameters_eq_of_under {key : Value}
    (h : Under "parameters" (ListInlined named) key v v') :
    readParameters named v = readParameters named v' := by
  cases h with
  | same => rfl
  | changed hlist => exact readParameters_eq_of_inlined hlist

theorem readOperation_eq_of_inlined (h : Entrywise (Under "parameters" (ListInlined named)) o o')
    (path : String) (shared : List Parameter) (verb : Verb) :
    readOperation named path shared verb o = readOperation named path shared verb o' := by
  have hget (key : String) (hkey : key ≠ "parameters") : Value.get o' key = Value.get o key := by
    rw [Value.get, h.find?_of_ne hkey, Value.get]
  have hown : readParameters named (Value.get o "parameters") =
      readParameters named (Value.get o' "parameters") := by
    have hfind := h.find? "parameters"
    unfold Value.get
    generalize Value.find? o "parameters" = w at hfind ⊢
    generalize Value.find? o' "parameters" = w' at hfind ⊢
    rcases hfind with hv | _
    · exact readParameters_eq_of_under hv
    · rfl
  simp only [readOperation, operationId, hown, hget "requestBody" (by decide),
    hget "responses" (by decide), hget "operationId" (by decide), hget "summary" (by decide),
    hget "description" (by decide), hget "tags" (by decide)]

/-- The parameters of a path are read alike; what is a map lists none. -/
theorem readParameters_eq_of_pathEntry {key : Value} (h : PathEntryInlined named key v v') :
    readParameters named v = readParameters named v' := by
  rcases h with hunder | hoperation
  · exact readParameters_eq_of_under hunder
  · cases hoperation
    rfl

variable {fields fields' : List (String × Value)}

theorem readPath_eq_of_inlined
    (h : List.Forall₂ (fun e e' => e.1 = e'.1 ∧ EntryInlined named e.2 e'.2) fields fields')
    (path : String) : readPath named path fields = readPath named path fields' := by
  refine readPath_eq_of_alike ?_ fun verb => rel_imp (fun v v' hv => ?_)
    (Assoc.rel_find? h verb.keyword)
  · have hfind := Assoc.rel_find? h "parameters"
    generalize Assoc.find? fields "parameters" = w at hfind ⊢
    generalize Assoc.find? fields' "parameters" = w' at hfind ⊢
    rcases hfind with ⟨key, hv⟩ | _
    · exact readParameters_eq_of_pathEntry hv
    · rfl
  · obtain ⟨key, hunder | hoperation⟩ := hv
    · cases hunder with
      | same => exact .refl (fun _ _ _ => rfl) v
      | changed hlist =>
        -- A list is no operation, under whatever key it stands.
        cases hlist
        exact .other nofun nofun
    · cases hoperation with
      | map ho => exact .map (readOperation_eq_of_inlined ho path)

end Extraction

namespace Validation

variable {named : List (String × Value)} {place : List String}

theorem exists_path_of_inlined {v v' : Value} (h : PathInlined named v v')
    {fields : List (String × Value)} (hv : map .numbersToo anything place v = .ok fields) :
    ∃ fields', map .numbersToo anything place v' = .ok fields' ∧
      ∀ path, readPath named path fields = readPath named path fields' := by
  cases h with
  | map hentries =>
    have hread : ∀ key v v', PathEntryInlined named key v v' → ∀ (place : List String) a,
        anything place v = .ok a →
          ∃ a', anything place v' = .ok a' ∧ EntryInlined named a a' := by
      rintro key v v' hentry place a ⟨rfl⟩
      exact ⟨v', rfl, key, hentry⟩
    obtain ⟨fields', hfields', hsame⟩ := exists_map_of_entrywise hread hentries hv
    exact ⟨fields', hfields', readPath_eq_of_inlined hsame⟩

theorem exists_paths_of_inlined {v v' : Value}
    (h : Under "paths" (Mapped fun _ => PathInlined named) (.text "paths") v v')
    {paths : List (String × List (String × Value))}
    (hv : Validation.paths place v = .ok paths) :
    ∃ paths', Validation.paths place v' = .ok paths' ∧
      List.Forall₂ (fun p p' => p.1 = p'.1 ∧
        ∀ path, readPath named path p.2 = readPath named path p'.2) paths paths' := by
  cases h with
  | same => exact ⟨paths, hv, List.forall₂_same.2 fun _ _ => ⟨rfl, fun _ => rfl⟩⟩
  | changed hpaths =>
    cases hpaths with
    | map hentries =>
      have hread : ∀ (_ : Value) v v', PathInlined named v v' → ∀ place fields,
          map .numbersToo anything place v = .ok fields →
            ∃ fields', map .numbersToo anything place v' = .ok fields' ∧
              ∀ path, readPath named path fields = readPath named path fields' :=
        fun _ _ _ hpath _ _ hv => exists_path_of_inlined hpath hv
      exact exists_map_of_entrywise hread hentries hv

end Validation

section Description

variable {raw raw' : Value} {doc : Document} {paths' : List (String × List (String × Value))}

theorem Value.Inlines.exists_document (hdoc : Document.ofValue raw = .ok doc)
    (h : Inlines doc.parameters raw raw') : ∃ paths',
      Document.ofValue raw' = .ok { doc with paths := paths' } ∧
        List.Forall₂ (fun p p' => p.1 = p'.1 ∧ ∀ path,
          readPath doc.parameters path p.2 = readPath doc.parameters path p'.2)
            doc.paths paths' := by
  cases h with
  | map hentries =>
    exact Document.exists_of_paths hdoc (fun _ => hentries.find?_of_ne) (hentries.find? "paths")
      fun _ _ _ hv hread => exists_paths_of_inlined hv hread

/-- The keys of a path stay. -/
theorem Value.pathKeys_of_inlined {named : List (String × Value)} {paths paths' : Value}
    (h : Mapped (fun _ => PathInlined named) paths paths') :
    Document.pathKeys paths' = Document.pathKeys paths := by
  obtain ⟨hentries⟩ := h
  have hkeys {R : Value → Value → Value → Prop} {es es' : List (Value × Value)}
      (h : Entrywise R es es') : es'.map (·.1) = es.map (·.1) := by
    induction h with
    | nil => rfl
    | cons he _ ih => rw [List.map_cons, List.map_cons, ih, he.1]
  simp only [Document.pathKeys, Form.entriesOf]
  induction hentries with
  | nil => rfl
  | @cons e e' _ _ he _ ih =>
    obtain ⟨key, path⟩ := e
    obtain ⟨key', path'⟩ := e'
    obtain ⟨rfl, ⟨hpath⟩⟩ := he
    rw [List.flatMap_cons, List.flatMap_cons, ih]
    simp only [hkeys hpath]

theorem Value.Inlines.readsTexts_eq {named : List (String × Value)} (h : Inlines named raw raw') :
    Document.readsTexts raw' = Document.readsTexts raw := by
  obtain ⟨hentries⟩ := h
  have hpaths := hentries.find? "paths"
  have hget (key : String) (hkey : key ≠ "paths") := hentries.find?_of_ne hkey
  simp only [Document.readsTexts, Document.textValues, Value.get, hget "openapi" (by decide),
    hget "info" (by decide)]
  generalize Value.find? _ "paths" = w at hpaths ⊢
  generalize Value.find? _ "paths" = w' at hpaths ⊢
  rcases hpaths with hunder | _
  · cases hunder with
    | same => rfl
    | changed hpaths => simp only [Option.getD_some, Value.pathKeys_of_inlined hpaths]
  · rfl

theorem generate_of_document (hdoc : Document.ofValue raw = .ok doc) (options : Options) :
    generate raw options = if Document.readsTexts raw then (do
      let reg ← doc.registry.mapError .extraction
      Description.project ⟨doc, doc.interface options.sourceUrl reg⟩ options)
      else .error .noText := by
  rw [generate, Description.ofValue, Description.validated, hdoc]
  split
  · show ((doc.registry.mapError _ >>= fun reg => Except.ok _) >>= _) = _
    cases doc.registry <;> rfl
  · rfl

/-- What is generated depends on the paths of a description through its endpoints only, and through
the numbers among their keys. -/
theorem generate_eq_of_endpoints (hdoc : Document.ofValue raw = .ok doc)
    (hdoc' : Document.ofValue raw' = .ok { doc with paths := paths' })
    (htexts : Document.readsTexts raw' = Document.readsTexts raw)
    (hsame : ({ doc with paths := paths' } : Document).endpoints = doc.endpoints)
    (options : Options) : generate raw' options = generate raw options := by
  rw [generate_of_document hdoc, generate_of_document hdoc', htexts]
  -- Neither the registry nor the interface is read from the paths.
  refine congrArg (if Document.readsTexts raw then · else _)
    (congrArg (Except.bind _) (funext fun reg => ?_))
  rw [Description.project, Description.project, Description.endpoints, Description.endpoints, hsame]
  rfl

/-- Parameters may stand in place of references to them, in any selection of places: the description
is accepted, its endpoints and the notices about them are the same or cannot be extracted either,
and so is what is generated. -/
theorem generate_inlined (hdoc : Document.ofValue raw = .ok doc)
    (h : Inlines doc.parameters raw raw') :
    ∃ doc', Document.ofValue raw' = .ok doc' ∧ doc'.endpoints = doc.endpoints ∧
      ∀ options, generate raw' options = generate raw options := by
  obtain ⟨paths', hdoc', hsame⟩ := h.exists_document hdoc
  have hendpoints := Document.endpoints_of_paths hsame
  exact ⟨_, hdoc', hendpoints, generate_eq_of_endpoints hdoc hdoc' h.readsTexts_eq hendpoints⟩

/-- References in a path: to a parameter, with a name beside it, and to a reference. -/
def referringEntries : List (Value × Value) := [
  (.text "parameters", .list [
    .map [(.text "$ref", .text "#/components/parameters/Page"), (.text "name", .text "ignored")],
    .map [(.text "$ref", .text "#/components/parameters/Twice")]]),
  (.text "get", .map [(.text "parameters", .list [
    .map [(.text "$ref", .text "#/components/parameters/Page")],
    .map [(.text "$ref", .text "#/components/parameters/Body")]])])]

def bodyParameter : Value :=
  .map [(.text "name", .text "body"), (.text "in", .text "body")]

/-- The parameters in place of the first reference of the path and of the last of its operation. -/
def inlinedEntries : List (Value × Value) := [
  (.text "parameters", .list [
    Document.queryValue "page",
    .map [(.text "$ref", .text "#/components/parameters/Twice")]]),
  (.text "get", .map [(.text "parameters", .list [
    .map [(.text "$ref", .text "#/components/parameters/Page")],
    bodyParameter])])]

def namedParameters : List (Value × Value) := [
  (.text "Page", Document.queryValue "page"),
  (.text "Twice", .map [(.text "$ref", .text "#/components/parameters/Page")]),
  (.text "Body", bodyParameter)]

def referringValue (entries : List (Value × Value)) : Value :=
  .map [
    (.text "openapi", .text "3.0.0"),
    (.text "info", .map [(.text "title", .text "Pets"), (.text "version", .text "1")]),
    (.text "paths", .map [(.text "/pets", .map entries),
      (.text "/owners", .map Document.ownersEntries)]),
    (.text "components", .map [(.text "parameters", .map namedParameters)])]

theorem inlines_referring {named : List (String × Value)}
    (hpage : Assoc.find? named "Page" = some (Document.queryValue "page"))
    (hbody : Assoc.find? named "Body" = some bodyParameter) :
    Inlines named (referringValue referringEntries) (referringValue inlinedEntries) := by
  have hentries : Entrywise (PathEntryInlined named) referringEntries inlinedEntries :=
    .cons ⟨rfl, .inl (.changed (.list
        (.cons (.target (by rfl) hpage rfl) (.cons (.same _) .nil))))⟩
      (.cons ⟨rfl, .inr (.map (.cons ⟨rfl, .changed (.list
        (.cons (.same _) (.cons (.target (by rfl) hbody rfl) .nil)))⟩ .nil))⟩ .nil)
  have howners : Entrywise (PathEntryInlined named) Document.ownersEntries Document.ownersEntries :=
    .refl (fun _ _ => .inl (.same _ _)) _
  have hpaths : Mapped (fun _ => PathInlined named)
      (.map [(.text "/pets", .map referringEntries),
        (.text "/owners", .map Document.ownersEntries)])
      (.map [(.text "/pets", .map inlinedEntries),
        (.text "/owners", .map Document.ownersEntries)]) :=
    .map (.cons ⟨rfl, .map hentries⟩ (.cons ⟨rfl, .map howners⟩ .nil))
  exact .map (.cons ⟨rfl, .same _ _⟩ (.cons ⟨rfl, .same _ _⟩ (.cons ⟨rfl, .changed hpaths⟩
    (.cons ⟨rfl, .same _ _⟩ .nil))))

/-- Two of four references are replaced. The parameter of the path and that of its operation are
kept, and there is one notice about the reference to a reference and one about the location. -/
theorem generate_inlined_referring :
    ∃ doc doc' found, Document.ofValue (referringValue referringEntries) = .ok doc ∧
      Document.ofValue (referringValue inlinedEntries) = .ok doc' ∧
      doc.endpoints = .ok found ∧ doc'.endpoints = .ok found ∧
      found.items.map (fun e => e.parameters.map Parameter.name) = [["page", "page"], []] ∧
      found.notices.length = 2 ∧
      generate (referringValue inlinedEntries) .default =
        generate (referringValue referringEntries) .default := by
  obtain ⟨doc, hdoc⟩ : ∃ doc, Document.ofValue (referringValue referringEntries) = .ok doc :=
    ⟨_, rfl⟩
  have hnamed : doc.parameters = [("Page", Document.queryValue "page"),
      ("Twice", .map [(.text "$ref", .text "#/components/parameters/Page")]),
      ("Body", bodyParameter)] := by
    cases hdoc
    rfl
  have hshown : doc.endpoints.map (fun found : Reported Endpoint =>
      (found.items.map fun e => e.parameters.map Parameter.name, found.notices.length)) =
        .ok ([["page", "page"], []], 2) := by
    cases hdoc
    rfl
  obtain ⟨found, hfound, hitems⟩ := exists_of_map_eq_ok hshown
  have hinlines : Inlines doc.parameters (referringValue referringEntries)
      (referringValue inlinedEntries) := inlines_referring (hnamed ▸ rfl) (hnamed ▸ rfl)
  obtain ⟨doc', hdoc', hsame, hgenerate⟩ := generate_inlined hdoc hinlines
  exact ⟨doc, doc', found, hdoc, hdoc', hfound, hsame.trans hfound, congrArg Prod.fst hitems,
    congrArg Prod.snd hitems, hgenerate .default⟩

end Description

end TypedClient
