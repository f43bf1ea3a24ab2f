import TypedClient.Proofs.Accepted
import TypedClient.Proofs.Failure.Extraction

/-!
# Extracted endpoints

The endpoints of a description stand one for one for its operations, path by path in the order of
the document and verb by verb at each path (`Document.shows_of_endpoints`). Since each path is there
once, this order is strict (`Document.pairwise_precedes`), and no operation is extracted twice. The
parameters of an endpoint are those that are kept of its path and then those that are kept of its
operation, with nothing merged (`Keeps`).
-/

namespace TypedClient

open Extraction

namespace Extraction

/-! ## Kept parameters -/

/-- What a parameter says is what the map that describes it says, and the map says it in values that
have a text. -/
structure Describes (fields : List (Value × Value)) (p : Parameter) : Prop where
  texts : ∀ v ∈ parameterTexts fields, v.hasText = true
  name : p.name = (Value.get fields "name").display
  location : Value.get fields "in" = .text p.location.keyword
  required : p.required = (Value.get fields "required").isTruthy
  description : p.description = (Value.get fields "description").optionalText
  schema : match Value.find? fields "schema" with
    | none => p.schema = none
    | some raw => ∃ s, Schema.ofValue raw = .ok s ∧ p.schema = some s

/-- The parameters that are kept of some items, in the order of the items. -/
inductive Keeps (parameters : List (String × Value)) : List Value → List Parameter → Prop
  | nil : Keeps parameters [] []
  | kept {item : Value} {items : List Value} {fields : List (Value × Value)} {p : Parameter}
    {ps : List Parameter} : StandsFor parameters item fields → IsKept fields →
    Describes fields p → Keeps parameters items ps → Keeps parameters (item :: items) (p :: ps)
  | skipped {item : Value} {items : List Value} {ps : List Parameter} :
    (¬ ∃ fields, StandsFor parameters item fields ∧ IsKept fields) →
    Keeps parameters items ps → Keeps parameters (item :: items) ps

variable {parameters : List (String × Value)}

theorem location?_eq_some {raw : Value} {l : Location} (h : location? raw = some l) :
    raw = .text l.keyword := by
  unfold location? at h
  exact Value.isText_eq_true.1 (by simpa using List.find?_some h)

/-- A map becomes a parameter if it is one that is kept. -/
theorem parameter_eq_ok {fields : List (Value × Value)} {i : Item} (h : parameter fields = .ok i) :
    (∃ p, i = .kept p ∧ IsKept fields ∧ Describes fields p) ∨
      (∀ p, i ≠ .kept p) ∧ ¬ IsKept fields := by
  unfold parameter at h
  split at h
  · rename_i hlocation
    cases h
    refine .inr ⟨nofun, fun hkept => ?_⟩
    obtain ⟨l, hl⟩ := hkept.location
    exact location?_eq_none.1 hlocation l hl
  · rename_i l hlocation
    have hin := location?_eq_some hlocation
    split at h
    · rename_i hname
      have hkept : IsKept fields := ⟨⟨l, hin⟩, hname⟩
      obtain ⟨⟨⟩, htexts, h⟩ := exists_of_bind_eq_ok h
      have htexts := Value.requireTexts_eq_ok.1 htexts
      rcases hraw : Value.find? fields "schema" with _ | raw
      · rw [hraw] at h
        cases h
        exact .inl ⟨_, rfl, hkept, htexts, rfl, hin, rfl, rfl, by rw [hraw]⟩
      · rw [hraw] at h
        obtain ⟨_, hschema, h⟩ := exists_of_bind_eq_ok h
        obtain ⟨s, hs, rfl⟩ := exists_of_map_eq_ok hschema
        cases h
        refine .inl ⟨_, rfl, hkept, htexts, rfl, hin, rfl, rfl, ?_⟩
        rw [hraw]
        exact ⟨s, mapError_eq_ok.1 hs, rfl⟩
    · rename_i hname
      cases h
      exact .inr ⟨nofun, fun hkept => hname hkept.name⟩

/-- An item becomes a parameter if it stands for one that is kept. -/
theorem item_eq_ok {raw : Value} {i : Item} (h : item parameters raw = .ok i) :
    (∃ fields p, i = .kept p ∧ StandsFor parameters raw fields ∧ IsKept fields ∧
      Describes fields p) ∨
      (∀ p, i ≠ .kept p) ∧ ¬ ∃ fields, StandsFor parameters raw fields ∧ IsKept fields := by
  have hmap {fields target : List (Value × Value)} (h : parameter target = .ok i)
      (hfor : ∀ other, StandsFor parameters (.map fields) other ↔ other = target) :
      (∃ other p, i = .kept p ∧ StandsFor parameters (.map fields) other ∧ IsKept other ∧
        Describes other p) ∨
        (∀ p, i ≠ .kept p) ∧
          ¬ ∃ other, StandsFor parameters (.map fields) other ∧ IsKept other := by
    simp only [hfor]
    rcases parameter_eq_ok h with ⟨p, hi, hkept, hp⟩ | ⟨hi, hkept⟩
    · exact .inl ⟨target, p, hi, rfl, hkept, hp⟩
    · refine .inr ⟨hi, ?_⟩
      rintro ⟨_, rfl, hother⟩
      exact hkept hother
  unfold item at h
  split at h
  · rename_i fields
    split at h
    · rename_i href
      refine hmap h fun other => ?_
      simp [standsFor_map_iff, href, parameterTarget?]
    · rename_i href
      have hne : Value.get fields "$ref" ≠ .null := href
      split at h
      · rename_i target htarget
        refine hmap h fun other => ?_
        simp [standsFor_map_iff, hne, htarget, eq_comm]
      · rename_i htarget
        cases h
        refine .inr ⟨by simp, ?_⟩
        rintro ⟨other, hother, -⟩
        rcases (standsFor_map_iff parameters).1 hother with ⟨hnull, -⟩ | hother
        · exact hne hnull
        · exact htarget other hother
  · rename_i hnot
    cases h
    refine .inr ⟨by simp, ?_⟩
    rintro ⟨other, hother, -⟩
    cases hother <;> exact hnot _ rfl

theorem keeps_of_items {raws : List Value} {items : List Item}
    (h : List.Forall₂ (fun raw i => item parameters raw = .ok i) raws items) :
    Keeps parameters raws (report items).items := by
  induction h with
  | nil => exact .nil
  | cons hitem _ ih =>
    rcases item_eq_ok hitem with ⟨fields, p, rfl, hfor, hkept, hp⟩ | ⟨hnot, hskip⟩
    · exact .kept hfor hkept hp ih
    · rename_i i _ _ _
      cases i with
      | kept p => exact absurd rfl (hnot p)
      | dropped notice => exact .skipped hskip ih
      | ignored => exact .skipped hskip ih

theorem keeps_of_readParameters {raw : Value} {r : Reported Parameter}
    (h : readParameters parameters raw = .ok r) :
    Keeps parameters (Form.itemsOf raw) r.items := by
  obtain ⟨raws, hraws, h⟩ := exists_of_bind_eq_ok h
  obtain ⟨items, hitems, h⟩ := exists_of_bind_eq_ok h
  cases h
  rcases parameterItems_eq_ok hraws with rfl | ⟨rfl, hlist⟩
  · exact keeps_of_items (forall₂_of_mapM_eq_ok hitems)
  · cases hitems
    have hnone : Form.itemsOf raw = [] := by
      cases raw with
      | list others => exact absurd rfl (hlist others)
      | _ => rfl
    rw [hnone]
    exact .nil

/-! ## Operations -/

theorem operationId_ne_empty (verb : Verb) (path : String) (fields : List (Value × Value)) :
    operationId verb path fields ≠ "" := by
  have hmade : Name.operationId verb.keyword path ≠ "" := by
    intro h
    have hlower : (Text.lower verb.keyword).toList = [] :=
      (List.append_eq_nil_iff.1 (by rw [← String.toList_append]; exact congrArg _ h)).1
    cases verb <;> revert hlower <;> decide
  unfold operationId
  split
  · split
    · exact hmade
    · rename_i hdeclared
      rintro rfl
      exact hdeclared rfl
  · exact hmade

/-- An endpoint and the operation of a path that it is made of. -/
structure Shows (parameters : List (String × Value)) (path : String)
    (fields : List (String × Value)) (o : Verb × List (Value × Value)) (e : Endpoint) : Prop where
  path : e.path = path
  verb : e.verb = o.1
  operationId : e.operationId ≠ ""
  parameters : ∃ shared own, e.parameters = shared ++ own ∧
    Keeps parameters (Form.itemsOf ((Assoc.find? fields "parameters").getD .null)) shared ∧
    Keeps parameters (Form.itemsOf (Value.get o.2 "parameters")) own

theorem exists_of_readOperation {path : String} {shared : List Parameter} {verb : Verb}
    {operation : List (Value × Value)} {r : Reported Endpoint}
    (h : readOperation parameters path shared verb operation = .ok r) :
    ∃ e own, r.items = [e] ∧ e.path = path ∧ e.verb = verb ∧ e.operationId ≠ "" ∧
      e.parameters = shared ++ own ∧
      Keeps parameters (Form.itemsOf (Value.get operation "parameters")) own := by
  obtain ⟨own, _, _, hown, -, -, rfl⟩ := exists_of_readOperation_eq_ok h
  exact ⟨_, own.items, rfl, rfl, rfl, operationId_ne_empty verb path operation, rfl,
    keeps_of_readParameters hown⟩

theorem joined_items {α : Type} (reports : List (Reported α)) :
    (joined reports).items = reports.flatMap (·.items) := by
  induction reports with
  | nil => rfl
  | cons r rs ih => rw [List.flatMap_cons, ← ih]; rfl

theorem forall₂_joined {α β : Type} {R : α → β → Prop} {as : List α} {rs : List (Reported β)}
    (h : List.Forall₂ (fun a r => ∃ b, r.items = [b] ∧ R a b) as rs) :
    List.Forall₂ R as (joined rs).items := by
  rw [joined_items]
  induction h with
  | nil => exact .nil
  | cons hr _ ih =>
    obtain ⟨b, hitems, hb⟩ := hr
    rw [List.flatMap_cons, hitems]
    exact .cons hb ih

/-- The endpoints of a path stand for its operations. -/
theorem shows_of_readPath {path : String} {fields : List (String × Value)} {r : Reported Endpoint}
    (h : readPath parameters path fields = .ok r) :
    List.Forall₂ (Shows parameters path fields) (operations fields) r.items := by
  obtain ⟨shared, hshared, h⟩ := exists_of_bind_eq_ok h
  obtain ⟨rs, hrs, h⟩ := exists_of_bind_eq_ok h
  cases h
  refine forall₂_joined ((forall₂_of_mapM_eq_ok hrs).imp fun o r' ho => ?_)
  obtain ⟨e, own, hitems, hpath, hverb, hid, hparameters, hown⟩ := exists_of_readOperation ho
  exact ⟨e, hitems, hpath, hverb, hid, shared.items, own, hparameters,
    keeps_of_readParameters hshared, hown⟩

/-- The verbs of the operations of a path are in order. -/
theorem pairwise_operations (fields : List (String × Value)) :
    (operations fields).Pairwise fun o o' => Verb.all.idxOf o.1 < Verb.all.idxOf o'.1 := by
  have hall : Verb.all.Pairwise fun v v' => Verb.all.idxOf v < Verb.all.idxOf v' := by decide
  refine List.pairwise_filterMap.2 (hall.imp fun hlt o ho o' ho' => ?_)
  split at ho
  · cases ho
    split at ho'
    · cases ho'
      exact hlt
    · cases ho'
  · cases ho

end Extraction

/-! ## The order of the endpoints -/

/-- The place of an endpoint: its path and its verb. -/
def Endpoint.place (e : Endpoint) : String × Verb :=
  (e.path, e.verb)

namespace Document

variable (doc : Document)

/-- The operations of the document with their paths, path by path. -/
def operations : List ((String × List (String × Value)) × (Verb × List (Value × Value))) :=
  doc.paths.flatMap fun p => (Extraction.operations p.2).map (p, ·)

/-- A path has an operation: a map under a verb. -/
def OperatesAt (path : String) (verb : Verb) : Prop :=
  ∃ fields operation, (path, fields) ∈ doc.paths ∧
    Assoc.find? fields verb.keyword = some (.map operation)

/-- A place comes before another: its path is earlier in the document, or the paths are the same
and its verb is earlier. -/
def Precedes (a b : String × Verb) : Prop :=
  (Assoc.names doc.paths).idxOf a.1 < (Assoc.names doc.paths).idxOf b.1 ∨
    a.1 = b.1 ∧ Verb.all.idxOf a.2 < Verb.all.idxOf b.2

variable {doc}

theorem mem_operations {x : (String × List (String × Value)) × (Verb × List (Value × Value))} :
    x ∈ doc.operations ↔
      x.1 ∈ doc.paths ∧ Assoc.find? x.1.2 x.2.1.keyword = some (.map x.2.2) := by
  obtain ⟨p, o⟩ := x
  simp only [operations, List.mem_flatMap, List.mem_map, Prod.mk.injEq, Extraction.mem_operations]
  constructor
  · rintro ⟨_, hp, _, ho, rfl, rfl⟩
    exact ⟨hp, ho⟩
  · rintro ⟨hp, ho⟩
    exact ⟨p, hp, o, ho, rfl, rfl⟩

/-- The endpoints of a document stand for its operations, one for one and in their order. -/
theorem shows_of_endpoints {found : Reported Endpoint} (h : doc.endpoints = .ok found) :
    List.Forall₂ (fun x e => Shows doc.parameters x.1.1 x.1.2 x.2 e) doc.operations
      found.items := by
  obtain ⟨rs, hrs, h⟩ := exists_of_bind_eq_ok h
  cases h
  rw [operations, joined_items]
  refine List.rel_flatMap (forall₂_of_mapM_eq_ok hrs) fun p r hr => ?_
  rw [List.forall₂_map_left_iff]
  exact shows_of_readPath hr

theorem places_of_endpoints {found : Reported Endpoint} (h : doc.endpoints = .ok found) :
    found.items.map Endpoint.place = doc.operations.map fun x => (x.1.1, x.2.1) := by
  have hplaces := (shows_of_endpoints h).imp fun x e hshows =>
    show (x.1.1, x.2.1) = e.place from Prod.ext hshows.path.symm hshows.verb.symm
  rw [← List.forall₂_eq_eq_eq, List.forall₂_map_left_iff, List.forall₂_map_right_iff]
  exact hplaces.flip.imp fun _ _ => Eq.symm

theorem pairwise_idxOf {names : List String} (h : names.Nodup) :
    names.Pairwise fun a b => names.idxOf a < names.idxOf b := by
  rw [List.pairwise_iff_getElem]
  intro i j hi hj hij
  rwa [h.idxOf_getElem, h.idxOf_getElem]

theorem pairwise_precedes (h : (Assoc.names doc.paths).Nodup) :
    (doc.operations.map fun x => (x.1.1, x.2.1)).Pairwise doc.Precedes := by
  rw [List.pairwise_map, operations, List.pairwise_flatMap]
  refine ⟨fun p _ => ?_, ?_⟩
  · rw [List.pairwise_map]
    exact (pairwise_operations p.2).imp fun hlt => .inr ⟨rfl, hlt⟩
  · refine (List.pairwise_map.1 (pairwise_idxOf h)).imp fun hlt x hx y hy => .inl ?_
    obtain ⟨_, -, rfl⟩ := List.mem_map.1 hx
    obtain ⟨_, -, rfl⟩ := List.mem_map.1 hy
    exact hlt

theorem not_precedes_self (a : String × Verb) : ¬ doc.Precedes a a := by
  rintro (h | ⟨-, h⟩) <;> exact Nat.lt_irrefl _ h

/-- An endpoint is extracted for every operation and for nothing else. -/
theorem mem_places_iff {found : Reported Endpoint} (h : doc.endpoints = .ok found) {path : String}
    {verb : Verb} : (path, verb) ∈ found.items.map Endpoint.place ↔ doc.OperatesAt path verb := by
  rw [places_of_endpoints h, List.mem_map]
  simp only [mem_operations]
  constructor
  · rintro ⟨⟨⟨_, fields⟩, ⟨_, operation⟩⟩, ⟨hp, ho⟩, heq⟩
    cases heq
    exact ⟨fields, operation, hp, ho⟩
  · rintro ⟨fields, operation, hp, ho⟩
    exact ⟨((path, fields), (verb, operation)), ⟨hp, ho⟩, rfl⟩

end Document

end TypedClient
