import Mathlib.Data.List.Forall2
import TypedClient.Endpoint.Extraction
import TypedClient.Proofs.Failure.Outcome

/-!
# Documents that are accepted

A description is accepted if each of its fields is (`Document.check_eq_ok`), and a map with texts as
keys if each of its entries is (`Validation.map_eq_ok`). Each path of an accepted description is
there once (`Document.nodup_names_paths`), and so is each name of a schema or of a parameter.
-/

namespace TypedClient

/-! ## Computations for all items of a list -/

theorem forall₂_of_mapM_eq_ok {ε α β : Type} {f : α → Except ε β} :
    ∀ {l : List α} {rs : List β}, l.mapM f = .ok rs → List.Forall₂ (fun a b => f a = .ok b) l rs
  | [], _, h => by
    cases h
    exact .nil
  | a :: l, _, h => by
    rw [List.mapM_cons] at h
    obtain ⟨b, hb, h⟩ := exists_of_bind_eq_ok h
    obtain ⟨bs, hbs, h⟩ := exists_of_bind_eq_ok h
    cases h
    exact .cons hb (forall₂_of_mapM_eq_ok hbs)

theorem mapM_eq_ok_iff {ε α β : Type} {f : α → Except ε β} {l : List α} {rs : List β} :
    l.mapM f = .ok rs ↔ List.Forall₂ (fun a b => f a = .ok b) l rs := by
  refine ⟨forall₂_of_mapM_eq_ok, fun h => ?_⟩
  induction h with
  | nil => rfl
  | cons hb _ ih => rw [List.mapM_cons, hb, ih]; rfl

theorem mapM_eq_of_forall₂ {ε α α' β : Type} {f : α → Except ε β} {g : α' → Except ε β}
    {as : List α} {as' : List α'} (h : List.Forall₂ (fun a a' => f a = g a') as as') :
    as.mapM f = as'.mapM g := by
  induction h with
  | nil => rfl
  | cons ha _ ih => rw [List.mapM_cons, List.mapM_cons, ha, ih]

theorem exists_mem_of_forall₂ {α β : Type} {R : α → β → Prop} {as : List α} {bs : List β}
    (h : List.Forall₂ R as bs) {b : β} (hb : b ∈ bs) : ∃ a ∈ as, R a b := by
  induction h with
  | nil => cases hb
  | cons hr _ ih =>
    rcases List.mem_cons.1 hb with rfl | hb
    · exact ⟨_, List.mem_cons_self, hr⟩
    · obtain ⟨a, ha, hab⟩ := ih hb
      exact ⟨a, List.mem_cons_of_mem _ ha, hab⟩

/-! ## Checks -/

namespace Checked

variable {α β : Type}

theorem both_eq_ok {a : Checked α} {b : Checked β} {p : α × β} :
    both a b = .ok p ↔ a = .ok p.1 ∧ b = .ok p.2 := by
  unfold both
  split
  · simp [Prod.ext_iff]
  · rename_i hne
    simp only [reduceCtorEq, false_iff]
    rintro ⟨ha, hb⟩
    exact hne _ _ ha hb

theorem map_eq_ok {a : Checked α} {f : α → β} {b : β} :
    a.map f = .ok b ↔ ∃ x, a = .ok x ∧ f x = b := by
  cases a <;> simp [Except.map]

theorem all_eq_ok : ∀ {cs : List (Checked α)} {vs : List α},
    all cs = .ok vs ↔ List.Forall₂ (fun c v => c = .ok v) cs vs
  | [], vs => by simp [all, eq_comm]
  | c :: cs, vs => by
    rw [all, map_eq_ok, List.forall₂_cons_left_iff]
    simp only [both_eq_ok, Prod.exists, @all_eq_ok cs]
    constructor
    · rintro ⟨v, vs, ⟨hc, hcs⟩, rfl⟩
      exact ⟨v, vs, hc, hcs, rfl⟩
    · rintro ⟨v, vs, hc, hcs, rfl⟩
      exact ⟨v, vs, ⟨hc, hcs⟩, rfl⟩

end Checked

open Checked Validation

namespace Validation

variable {α : Type} {rule : TextRule} {read : List String → Value → Checked α}

theorem text_eq_ok {place : List String} {v : Value} {s : String} :
    text rule place v = .ok s ↔ rule.read? v = some s := by
  unfold text
  split <;> simp_all [refuse]

theorem entry_eq_ok {place : List String} {e : Value × Value} {p : String × α} :
    entry rule place read e = .ok p ↔
      rule.read? e.1 = some p.1 ∧ read (place ++ [keyPlace e.1]) e.2 = .ok p.2 := by
  rw [entry, both_eq_ok, text_eq_ok]

/-- A map is accepted if its keys are texts and its values are accepted. -/
theorem map_eq_ok {place : List String} {v : Value} {entries : List (String × α)} :
    map rule read place v = .ok entries ↔ ∃ es pairs, v = .map es ∧
      List.Forall₂ (fun e p => entry rule place read e = .ok p) es pairs ∧
      Assoc.ofPairs pairs = entries := by
  unfold map
  split
  · rename_i es
    simp only [Checked.map_eq_ok, all_eq_ok, List.forall₂_map_left_iff, Value.map.injEq,
      ↓existsAndEq, true_and]
  · rename_i hmap
    simp only [refuse, reduceCtorEq, false_iff]
    rintro ⟨es, _, rfl, -⟩
    exact hmap es rfl

theorem nodup_names_of_map {place : List String} {v : Value} {entries : List (String × α)}
    (h : map rule read place v = .ok entries) : (Assoc.names entries).Nodup := by
  obtain ⟨_, pairs, -, -, rfl⟩ := map_eq_ok.1 h
  exact Assoc.nodup_names_ofPairs pairs

theorem required_eq_ok {place : List String} {read : Value → Checked α} {v : Option Value} {a : α} :
    required place read v = .ok a ↔ ∃ w, v = some w ∧ read w = .ok a := by
  cases v <;> simp [required, refuse]

theorem nodup_names_of_withDefault {place : List String} {v : Option Value}
    {entries : List (String × α)} (h : withDefault [] (map rule read place) v = .ok entries) :
    (Assoc.names entries).Nodup := by
  cases v with
  | none =>
    cases h
    exact List.nodup_nil
  | some v => exact nodup_names_of_map h

theorem components_eq_ok {place : List String} {fields : List (Value × Value)} {c : Components} :
    Validation.components place (.map fields) = .ok c ↔
      withDefault [] (map .textOnly anything (place ++ ["schemas"]))
        (Value.find? fields "schemas") = .ok c.schemas ∧
      withDefault [] (map .textOnly anything (place ++ ["parameters"]))
        (Value.find? fields "parameters") = .ok c.parameters := by
  rw [Validation.components, Checked.map_eq_ok]
  simp only [both_eq_ok]
  constructor
  · rintro ⟨_, h, rfl⟩
    exact h
  · exact fun h => ⟨(c.schemas, c.parameters), h, rfl⟩

end Validation

namespace Document

/-- A description is accepted if its fields are. -/
theorem check_eq_ok {fields : List (Value × Value)} {doc : Document} : check fields = .ok doc ↔
    required ["openapi"] (text .numbersToo ["openapi"]) (Value.find? fields "openapi") =
      .ok doc.format ∧
    required ["info"] (Validation.info ["info"]) (Value.find? fields "info") = .ok doc.info ∧
    withDefault [] (Validation.servers ["servers"]) (Value.find? fields "servers") =
      .ok doc.servers ∧
    required ["paths"] (Validation.paths ["paths"]) (Value.find? fields "paths") =
      .ok doc.paths ∧
    withDefault none (nullable (Validation.components ["components"]))
      (Value.find? fields "components") = .ok doc.components := by
  rw [check, Checked.map_eq_ok]
  simp only [both_eq_ok]
  constructor
  · rintro ⟨_, h, rfl⟩
    exact h
  · intro h
    exact ⟨(doc.format, doc.info, doc.servers, doc.paths, doc.components), h, rfl⟩

theorem ofValue_eq_ok {raw : Value} {doc : Document} :
    ofValue raw = .ok doc ↔ ∃ fields, raw = .map fields ∧ check fields = .ok doc := by
  unfold ofValue
  split
  · simp [mapError_eq_ok]
  · rename_i hmap
    simp only [reduceCtorEq, false_iff]
    rintro ⟨fields, rfl, -⟩
    exact hmap fields rfl

/-- Each path of an accepted description is there once. -/
theorem nodup_names_paths {raw : Value} {doc : Document} (h : ofValue raw = .ok doc) :
    (Assoc.names doc.paths).Nodup := by
  obtain ⟨fields, -, hcheck⟩ := ofValue_eq_ok.1 h
  obtain ⟨-, -, -, hpaths, -⟩ := check_eq_ok.1 hcheck
  obtain ⟨v, -, hv⟩ := required_eq_ok.1 hpaths
  exact nodup_names_of_map hv

/-- The named schemas and parameters of an accepted description, read from the maps that stand for
them. -/
theorem components_of_ofValue {fields : List (Value × Value)} {doc : Document}
    (hdoc : ofValue (.map fields) = .ok doc) :
    let components := Form.entriesOf (Value.get fields "components")
    withDefault [] (map .textOnly anything ["components", "schemas"])
        (Value.find? components "schemas") = .ok doc.schemas ∧
      withDefault [] (map .textOnly anything ["components", "parameters"])
        (Value.find? components "parameters") = .ok doc.parameters := by
  obtain ⟨_, ⟨rfl⟩, hcheck⟩ := ofValue_eq_ok.1 hdoc
  obtain ⟨-, -, -, -, h⟩ := check_eq_ok.1 hcheck
  rw [Value.get]
  generalize Value.find? fields "components" = v at h ⊢
  rcases v with _ | v
  · have hnone : doc.components = none := (Except.ok.inj h).symm
    simp [schemas, parameters, hnone, Form.entriesOf, Value.find?, withDefault]
  · cases v with
    | null =>
      have hnone : doc.components = none := (Except.ok.inj h).symm
      simp [schemas, parameters, hnone, Form.entriesOf, Value.find?, withDefault]
    | map cs =>
      obtain ⟨c, hc, hsome⟩ := Checked.map_eq_ok.1 h
      simp only [schemas, parameters, ← hsome, Option.getD_some, Form.entriesOf]
      simpa using components_eq_ok.1 hc
    | _ => cases h

/-- Each name of a schema or of a parameter of an accepted description is there once. -/
theorem nodup_names_schemas {raw : Value} {doc : Document} (h : ofValue raw = .ok doc) :
    (Assoc.names doc.schemas).Nodup := by
  obtain ⟨fields, rfl, -⟩ := ofValue_eq_ok.1 h
  exact nodup_names_of_withDefault (components_of_ofValue h).1

theorem nodup_names_parameters {raw : Value} {doc : Document} (h : ofValue raw = .ok doc) :
    (Assoc.names doc.parameters).Nodup := by
  obtain ⟨fields, rfl, -⟩ := ofValue_eq_ok.1 h
  exact nodup_names_of_withDefault (components_of_ofValue h).2

end Document

end TypedClient
