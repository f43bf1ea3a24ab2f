import TypedClient.Proofs.Failure.Generation
import TypedClient.Proofs.Lookup

/-!
# Descriptions with one more schema

`Value.insertSchema` puts a schema at a position among the named ones. Under a name that no schema
has, the description is accepted as before: nothing else of it changes, and the named schemas are
the old ones with the new one at that position (`Document.ofValue_insertSchema`). So it is in the
registry (`Document.exists_registry_insert`).
-/

namespace TypedClient

open Checked Validation

/-! ## Putting a schema into a description -/

namespace Value

/-- The map of the named schemas of a description. What is missing counts as empty. -/
def schemaEntries (raw : Value) : List (Value × Value) :=
  Form.entriesOf (get (Form.entriesOf (get (Form.entriesOf raw) "components")) "schemas")

/-- A description with another named schema at a position. -/
def insertSchema (raw : Value) (position : Nat) (name : String) (schema : Value) : Value :=
  let fields := Form.entriesOf raw
  let components := Form.entriesOf (get fields "components")
  let schemas := raw.schemaEntries
  .map (put fields (.text "components") (.map (put components (.text "schemas")
    (.map (schemas.take position ++ (.text name, schema) :: schemas.drop position)))))

end Value

open Value

/-! ## Maps with texts as keys -/

namespace Assoc

variable {α : Type}

theorem nodup_names_insert {entries : List (String × α)} {name : String} (value : α)
    (h : (names entries).Nodup) (hname : name ∉ names entries) (position : Nat) :
    (names (entries.take position ++ (name, value) :: entries.drop position)).Nodup := by
  have hperm : (entries.take position ++ (name, value) :: entries.drop position).Perm
      ((name, value) :: entries) := by
    have hmiddle := @List.perm_middle _ (name, value) (entries.take position)
      (entries.drop position)
    simpa using hmiddle
  exact (hperm.map Prod.fst).nodup_iff.2 (List.nodup_cons.2 ⟨hname, h⟩)

end Assoc

namespace Validation

/-- An entry of a map of texts as it stands in the document. -/
def textEntry (p : String × Value) : Value × Value :=
  (.text p.1, p.2)

theorem distinct_textEntry {entries : List (String × Value)} :
    Distinct (entries.map textEntry) ↔ (Assoc.names entries).Nodup := by
  rw [Distinct, List.map_map, List.Nodup, Assoc.names, List.pairwise_map, List.pairwise_map]
  refine List.Pairwise.iff fun p q => ?_
  simp [textEntry, eq_comm]

theorem entry_textOnly_eq_ok {place : List String} {e : Value × Value} {p : String × Value} :
    entry .textOnly place anything e = .ok p ↔ e = textEntry p := by
  obtain ⟨k, v⟩ := e
  rw [entry_eq_ok, textEntry, Prod.mk.injEq]
  cases k <;> simp [TextRule.read?, anything]

/-- A map whose keys are distinct texts is accepted as it is. -/
theorem map_textOnly_eq_ok {place : List String} {es : List (Value × Value)} (h : Distinct es)
    {entries : List (String × Value)} :
    map .textOnly anything place (.map es) = .ok entries ↔ es = entries.map textEntry := by
  rw [map_eq_ok]
  simp only [entry_textOnly_eq_ok]
  constructor
  · rintro ⟨_, pairs, ⟨rfl⟩, hpairs, rfl⟩
    have hes : es = pairs.map textEntry := by
      rw [← List.forall₂_eq_eq_eq, List.forall₂_map_right_iff]
      exact hpairs
    rw [hes, distinct_textEntry] at h
    rw [hes, Assoc.ofPairs_of_nodup h]
  · rintro rfl
    refine ⟨_, entries, rfl, ?_, Assoc.ofPairs_of_nodup (distinct_textEntry.1 h)⟩
    rw [List.forall₂_map_left_iff]
    exact List.forall₂_same.2 fun _ _ => rfl

end Validation

/-! ## The description with the schema -/

namespace Document

/-- The description with other named schemas. -/
def withSchemas (doc : Document) (schemas : List (String × Value)) : Document :=
  { doc with components := some ⟨schemas, doc.parameters⟩ }

variable {raw : Value} {doc : Document}

/-- The named schemas of an accepted description are those of the map that stands for them. -/
theorem schemaEntries_eq (hdoc : ofValue raw = .ok doc) (hdistinct : Distinct raw.schemaEntries) :
    raw.schemaEntries = doc.schemas.map textEntry := by
  obtain ⟨fields, rfl, -⟩ := ofValue_eq_ok.1 hdoc
  have h := (components_of_ofValue hdoc).1
  rw [Value.schemaEntries, Value.get] at hdistinct ⊢
  simp only [Form.entriesOf] at h hdistinct ⊢
  generalize Value.find? _ "schemas" = v at h hdistinct ⊢
  rcases v with _ | v
  · rw [← Except.ok.inj h]
    rfl
  · cases v with
    | map es => exact (map_textOnly_eq_ok hdistinct).1 h
    | _ => cases h

/-- With a schema under a new name a description is accepted, and nothing else of it changes. -/
theorem ofValue_insertSchema (hdoc : ofValue raw = .ok doc)
    (hdistinct : Distinct raw.schemaEntries) {name : String}
    (hname : name ∉ Assoc.names doc.schemas) (schema : Value) (position : Nat) :
    ofValue (raw.insertSchema position name schema) = .ok (doc.withSchemas
      (doc.schemas.take position ++ (name, schema) :: doc.schemas.drop position)) := by
  have hentries := schemaEntries_eq hdoc hdistinct
  have hnodup := Assoc.nodup_names_insert schema (nodup_names_schemas hdoc) hname position
  obtain ⟨fields, rfl, hcheck⟩ := ofValue_eq_ok.1 hdoc
  obtain ⟨hformat, hinfo, hservers, hpaths, -⟩ := check_eq_ok.1 hcheck
  have hparameters := (components_of_ofValue hdoc).2
  refine ofValue_eq_ok.2 ⟨_, rfl, check_eq_ok.2 ?_⟩
  simp only [find?_put_self, find?_put_of_ne (show "openapi" ≠ "components" by decide),
    find?_put_of_ne (show "info" ≠ "components" by decide),
    find?_put_of_ne (show "servers" ≠ "components" by decide),
    find?_put_of_ne (show "paths" ≠ "components" by decide)]
  refine ⟨hformat, hinfo, hservers, hpaths, ?_⟩
  refine Checked.map_eq_ok.2 ⟨_, components_eq_ok.2 ⟨?_, ?_⟩, rfl⟩
  · rw [find?_put_self, hentries]
    have hmap : (doc.schemas.map textEntry).take position ++
        (.text name, schema) :: (doc.schemas.map textEntry).drop position =
          (doc.schemas.take position ++ (name, schema) :: doc.schemas.drop position).map
            textEntry := by
      rw [List.map_append, List.map_cons, List.map_take, List.map_drop]
      rfl
    rw [hmap]
    exact (map_textOnly_eq_ok (distinct_textEntry.2 hnodup)).2 rfl
  · rw [find?_put_of_ne (by decide)]
    exact hparameters

/-- The values of a description that may be a number where a text is expected are the same. -/
theorem readsTexts_insertSchema (hdoc : ofValue raw = .ok doc) (position : Nat) (name : String)
    (schema : Value) : readsTexts (raw.insertSchema position name schema) = readsTexts raw := by
  obtain ⟨fields, rfl, -⟩ := ofValue_eq_ok.1 hdoc
  simp only [readsTexts, textValues, Value.insertSchema, Form.entriesOf, Value.get,
    find?_put_of_ne (show "openapi" ≠ "components" by decide),
    find?_put_of_ne (show "info" ≠ "components" by decide),
    find?_put_of_ne (show "paths" ≠ "components" by decide)]

/-- The endpoints are not read from the named schemas. -/
theorem endpoints_withSchemas (doc : Document) (schemas : List (String × Value)) :
    (doc.withSchemas schemas).endpoints = doc.endpoints :=
  rfl

end Document

/-! ## The registry with the schema -/

namespace Registry

theorem forall₂_zip {raws : List (String × Value)} {schemas : List Schema}
    (h : List.Forall₂ (fun e s => Schema.ofValue e.2 = .ok s) raws schemas) :
    List.Forall₂ (fun e e' => e.1 = e'.1 ∧ Schema.ofValue e.2 = .ok e'.2) raws
      ((raws.map (·.1)).zip schemas) := by
  induction h with
  | nil => exact .nil
  | cons he _ ih => exact .cons ⟨rfl, he⟩ ih

theorem zip_of_forall₂ {raws : List (String × Value)} {entries : List (String × Schema)}
    (h : List.Forall₂ (fun e e' => e.1 = e'.1 ∧ Schema.ofValue e.2 = .ok e'.2) raws entries) :
    (raws.map (·.1)).zip (entries.map (·.2)) = entries := by
  induction h with
  | nil => rfl
  | cons he _ ih => rw [List.map_cons, List.map_cons, List.zip_cons_cons, ih, he.1]

/-- The registry of schemas under distinct names holds them one for one. -/
theorem ofValues_eq_ok_iff {raws : List (String × Value)} (hnames : (Assoc.names raws).Nodup)
    {reg : Registry} : ofValues raws = .ok reg ↔
      List.Forall₂ (fun e e' => e.1 = e'.1 ∧ Schema.ofValue e.2 = .ok e'.2) raws reg.entries := by
  rw [ofValues, Schema.ofMembers_eq_mapM]
  constructor
  · intro h
    obtain ⟨schemas, hschemas, rfl⟩ := exists_of_map_eq_ok h
    have hforall := List.forall₂_map_left_iff.1 (mapM_eq_ok_iff.1 hschemas)
    have hzip := forall₂_zip hforall
    have hsame := Assoc.names_eq_of_forall₂ (R := fun v s => Schema.ofValue v = .ok s) hzip
    have hentries : (ofPairs ((raws.map (·.1)).zip schemas)).entries =
        (raws.map (·.1)).zip schemas := by
      refine Assoc.ofPairs_of_nodup ?_
      rwa [← hsame]
    rwa [hentries]
  · intro h
    have hschemas : (raws.map (·.2)).mapM Schema.ofValue = .ok (reg.entries.map (·.2)) := by
      rw [mapM_eq_ok_iff, List.forall₂_map_left_iff, List.forall₂_map_right_iff]
      exact h.imp fun _ _ => And.right
    have hreg : ofPairs ((raws.map (·.1)).zip (reg.entries.map (·.2))) = reg := by
      obtain ⟨entries, hdistinct⟩ := reg
      simp only [ofPairs, zip_of_forall₂ h, Assoc.ofPairs_of_nodup hdistinct]
    rw [hschemas, Except.map, hreg]

end Registry

namespace Document

variable {raw : Value} {doc : Document} {reg : Registry}

/-- With a schema under a new name the registry has it at its position among the old ones. -/
theorem exists_registry_insert (hnodup : (Assoc.names doc.schemas).Nodup)
    (hreg : doc.registry = .ok reg) {name : String} (hname : name ∉ Assoc.names doc.schemas)
    {v : Value} {s : Schema} (hs : Schema.ofValue v = .ok s) (position : Nat) :
    ∃ reg', (doc.withSchemas
        (doc.schemas.take position ++ (name, v) :: doc.schemas.drop position)).registry = .ok reg' ∧
      reg'.entries = reg.entries.take position ++ (name, s) :: reg.entries.drop position := by
  have hreads := (Registry.ofValues_eq_ok_iff hnodup).1 (mapError_eq_ok.1 hreg)
  have hnames : Assoc.names doc.schemas = reg.names :=
    Assoc.names_eq_of_forall₂ (R := fun v s => Schema.ofValue v = .ok s) hreads
  have hdistinct := Assoc.nodup_names_insert s reg.distinct (hnames ▸ hname) position
  refine ⟨⟨_, hdistinct⟩, mapError_eq_ok.2 ?_, rfl⟩
  refine (Registry.ofValues_eq_ok_iff (Assoc.nodup_names_insert v hnodup hname position)).2 ?_
  exact List.rel_append (List.forall₂_take position hreads)
    (.cons ⟨rfl, hs⟩ (List.forall₂_drop position hreads))

end Document

end TypedClient
