import TypedClient.Proofs.Failure.Variant
import TypedClient.Proofs.Lookup

/-!
# The fault that reading a schema ends with

The required names of every object that is read are looked at twice: for lists and maps when its
properties are read, and for other values that are no texts when all of it is read. The key of a
property has to have a text before the property is read, and so do the notes of an object and of a
primitive schema. These checks have an order (`checks`), and reading ends with the fault of the
first one that finds a fault (`faultOf_ofValue`). Without a fault every value on the way is read as
the variant that it is taken as.
-/

namespace TypedClient

variable {ε α β : Type}

/-- What a computation fails with. -/
def faultOf : Except ε α → Option ε
  | .error e => some e
  | .ok _ => none

theorem faultOf_eq_some {x : Except ε α} {e : ε} : faultOf x = some e ↔ x = .error e := by
  cases x <;> simp [faultOf]

theorem exists_of_faultOf_eq_none {x : Except ε α} (h : faultOf x = none) : ∃ a, x = .ok a := by
  cases x with
  | error e => cases h
  | ok a => exact ⟨a, rfl⟩

theorem faultOf_map (x : Except ε α) (f : α → β) : faultOf (x.map f) = faultOf x := by
  cases x <;> rfl

/-- A second step that has the same fault on every value. -/
theorem faultOf_bind {x : Except ε α} {f : α → Except ε β} {fault : Option ε}
    (h : ∀ a, faultOf (f a) = fault) : faultOf (x >>= f) = (faultOf x).or fault := by
  cases x with
  | error e => rfl
  | ok a => exact h a

theorem faultOf_bind_pure {x : Except ε α} {f : α → β} :
    faultOf (x >>= fun a => pure (f a)) = faultOf x := by
  cases x <;> rfl

theorem faultOf_mapM (f : α → Except ε β) : ∀ l : List α,
    faultOf (l.mapM f) = l.findSome? fun a => faultOf (f a)
  | [] => rfl
  | a :: l => by
    have htail (b : β) : faultOf (l.mapM f >>= fun bs => pure (b :: bs)) =
        l.findSome? fun a => faultOf (f a) := by
      rw [faultOf_bind_pure, faultOf_mapM f l]
    rw [List.mapM_cons, faultOf_bind htail, List.findSome?_cons]
    cases faultOf (f a) <;> rfl

theorem findSome?_flatMap (f : α → List β) (g : β → Option ε) : ∀ l : List α,
    (l.flatMap f).findSome? g = l.findSome? fun a => (f a).findSome? g
  | [] => rfl
  | a :: l => by
    rw [List.flatMap_cons, List.findSome?_append, findSome?_flatMap f g l, List.findSome?_cons]
    cases (f a).findSome? g <;> rfl

theorem findSome?_congr {f g : α → Option β} : ∀ {l : List α}, (∀ a ∈ l, f a = g a) →
    l.findSome? f = l.findSome? g
  | [], _ => rfl
  | a :: l, h => by
    rw [List.findSome?_cons, List.findSome?_cons, h a List.mem_cons_self,
      findSome?_congr fun b hb => h b (List.mem_cons_of_mem a hb)]

/-! ## The checks -/

namespace Variant

variable {raw : Value}

/-- Reading follows the parts. -/
theorem parts_induction {motive : Value → Prop}
    (h : ∀ raw, (∀ part ∈ parts raw, motive part) → motive raw) (raw : Value) : motive raw :=
  h raw fun part _ => parts_induction h part
termination_by sizeOf raw
decreasing_by exact sizeOf_lt_of_mem_parts ‹_›

theorem parts_object (h : taken raw = object) :
    parts raw = propertyParts raw ++ additionalParts raw := by
  rw [parts, h]

/-- The values that are listed as required names. -/
def required (raw : Value) : List Value :=
  Form.itemsOf (under raw "required")

end Variant

open Variant

/-- A look at a key or at the notes, for what has no text, or at the required names of an object,
for lists and maps or for other values that are no texts. -/
inductive Check where
  | key (object key : Value)
  | collections (object : Value)
  | notes (schema : Value)
  | names (object : Value)

namespace Check

/-- The fault that the check finds. -/
def fault? : Check → Option SchemaFault
  | .key _ k => if k.hasText then none else some .noText
  | .collections raw => if (required raw).all Value.isKey then none else some .requiredCollection
  | .notes raw => if (Variant.notes raw).all Value.hasText then none else some .noText
  | .names raw => if (required raw).all isTextual then none else some .requiredNotText

/-- The checks that a value is read with as the variant that it is taken as. -/
def own (raw : Value) : List Check :=
  match taken raw with
  | .primitive _ => [.notes raw]
  | .object => (keys raw).map (.key raw) ++ [.collections raw, .notes raw, .names raw]
  | _ => []

end Check

/-- The checks of reading a value, in order. With an object these are those of the properties, each
after its key, the look for lists and maps, those of the additional properties, and the looks at the
description and at the other required names. -/
def checks (raw : Value) : List Check :=
  if h : taken raw = .object then
    (properties raw).attach.flatMap (fun e => .key raw e.1.1 :: checks e.1.2) ++
      .collections raw :: (additionalParts raw).attach.flatMap (fun part => checks part.1) ++
      [.notes raw, .names raw]
  else Check.own raw ++ (parts raw).attach.flatMap fun part => checks part.1
termination_by sizeOf raw
decreasing_by
  · exact sizeOf_lt_of_mem_parts
      (parts_object h ▸ List.mem_append_left _ (List.mem_map_of_mem e.2))
  · exact sizeOf_lt_of_mem_parts (parts_object h ▸ List.mem_append_right _ part.2)
  · exact sizeOf_lt_of_mem_parts part.2

theorem checks_object {raw : Value} (h : taken raw = .object) :
    checks raw = (properties raw).flatMap (fun e => .key raw e.1 :: checks e.2) ++
      .collections raw :: (additionalParts raw).flatMap checks ++ [.notes raw, .names raw] := by
  have hproperties : (properties raw).attach.flatMap (fun e => .key raw e.1.1 :: checks e.1.2) =
      (properties raw).flatMap fun e => .key raw e.1 :: checks e.2 := by
    rw [List.flatMap_subtype (g := fun e => .key raw e.1 :: checks e.2) fun _ _ => rfl,
      List.unattach_attach]
  rw [checks, dif_pos h, hproperties]
  simp

theorem checks_of_ne_object {raw : Value} (h : taken raw ≠ .object) :
    checks raw = Check.own raw ++ (parts raw).flatMap checks := by
  rw [checks, dif_neg h]
  simp

/-! ## The first fault -/

namespace Schema

theorem faultOf_requireTexts (fault : ε) (values : List Value) :
    faultOf (Value.requireTexts fault values) =
      if values.all Value.hasText then none else some fault := by
  unfold Value.requireTexts
  split <;> rfl

theorem faultOf_checkKeys (object : Value) :
    faultOf (checkKeys (required object)) = (Check.collections object).fault? := by
  simp only [checkKeys, Check.fault?]
  split <;> rfl

theorem faultOf_requiredNames (object : Value) :
    faultOf (requiredNames (required object)) = (Check.names object).fault? := by
  have hlength : (textsOf (required object)).length = (required object).length ↔
      (required object).all isTextual = true := by
    rw [textsOf, List.filterMap_length_eq_length, List.all_eq_true]
    refine forall₂_congr fun r _ => ?_
    cases r <;> simp [isTextual]
  simp only [requiredNames, Check.fault?, hlength]
  split <;> rfl

theorem faultOf_notes {raw : Value} {notes : List Value} (h : Variant.notes raw = notes) :
    faultOf (Value.requireTexts SchemaFault.noText notes) = (Check.notes raw).fault? := by
  rw [faultOf_requireTexts, Check.fault?, h]

theorem faultOf_ofAdditional (raw : Value) :
    faultOf (ofAdditional raw) =
      (Form.additionalParts raw).findSome? fun part => faultOf (ofValue part) := by
  cases raw with
  | bool yes =>
    rw [ofAdditional]
    rfl
  | _ =>
    simp only [ofAdditional, Form.additionalParts, faultOf_map, List.findSome?_singleton]

theorem faultOf_ofProperties (object : Value) (entries : List (Value × Value)) :
    faultOf (ofProperties entries) = entries.findSome? fun e =>
      (Check.key object e.1).fault?.or (faultOf (ofValue e.2)) := by
  rw [ofProperties_eq_mapM, faultOf_mapM]
  refine congrArg (List.findSome? · entries) (funext fun e => ?_)
  rw [ofProperty, faultOf_bind fun _ => faultOf_bind_pure, faultOf_requireTexts, Check.fault?]
  simp

/-- Reading an object is stopped by a key or the value of a property, by its lists and maps, by its
additional properties, by its description or by its other values, whatever comes first. -/
theorem faultOf_object {raw : Value} (h : taken raw = .object) :
    faultOf (ofValue raw) =
      ((properties raw).findSome? fun e =>
          (Check.key raw e.1).fault?.or (faultOf (ofValue e.2))).or
        ((Check.collections raw).fault?.or
          (((additionalParts raw).findSome? fun part => faultOf (ofValue part)).or
            ((Check.notes raw).fault?.or (Check.names raw).fault?))) := by
  obtain ⟨entries, rfl⟩ := exists_map_of_taken_ne (show taken raw ≠ .unknown by simp [h])
  have hnotes : Variant.notes (.map entries) = [Value.get entries "description"] := by
    rw [Variant.notes, h]
    rfl
  rw [ofValue_map, Form.of_eq_as, h, ← faultOf_checkKeys, ← faultOf_requiredNames, additionalParts,
    ← faultOf_ofAdditional, ← faultOf_ofProperties, ← faultOf_notes hnotes]
  exact faultOf_bind fun _ => faultOf_bind fun _ => faultOf_bind fun _ => faultOf_bind fun _ =>
    faultOf_bind_pure

theorem faultOf_of_ne_object {raw : Value} (h : taken raw ≠ .object) :
    faultOf (ofValue raw) = ((Check.own raw).findSome? Check.fault?).or
      ((parts raw).findSome? fun part => faultOf (ofValue part)) := by
  by_cases hmap : ∃ entries, raw = .map entries
  · obtain ⟨entries, rfl⟩ := hmap
    rw [ofValue_map, Form.of_eq_as, parts, Check.own]
    cases ht : taken (.map entries) with
    | object => exact absurd ht h
    | primitive kind =>
      have hnotes : Variant.notes (.map entries) = notesOf entries := by
        rw [Variant.notes, ht]
        rfl
      simp only [Form.as, ofForm, faultOf_bind_pure, faultOf_notes hnotes,
        List.findSome?_singleton, List.findSome?_nil, Option.or_none]
    | array =>
      simp only [Form.as, ofForm, faultOf_map, List.findSome?_singleton, List.findSome?_nil,
        Option.none_or]
      rfl
    | combinator kind =>
      simp only [Form.as, ofForm, faultOf_map, ofMembers_eq_mapM, faultOf_mapM, List.findSome?_nil,
        Option.none_or]
      rfl
    | _ => rfl
  · rw [ofValue_of_not_map fun entries he => hmap ⟨entries, he⟩, parts, Check.own]
    cases ht : taken raw with
    | unknown => rfl
    | _ => exact absurd (exists_map_of_taken_ne (by simp [ht])) hmap

theorem findSome?_cons_eq_or (f : α → Option β) (a : α) (l : List α) :
    (a :: l).findSome? f = (f a).or (l.findSome? f) := by
  rw [List.findSome?_cons]
  cases f a <;> rfl

/-- Reading a value ends with the first fault that its checks find. -/
theorem faultOf_ofValue (raw : Value) :
    faultOf (ofValue raw) = (checks raw).findSome? Check.fault? := by
  induction raw using parts_induction with
  | h raw ih =>
    by_cases h : taken raw = .object
    · rw [parts_object h] at ih
      have hproperty : ∀ e ∈ properties raw,
          (Check.key raw e.1 :: checks e.2).findSome? Check.fault? =
            (Check.key raw e.1).fault?.or (faultOf (ofValue e.2)) := fun e he => by
        rw [findSome?_cons_eq_or, ih e.2 (List.mem_append_left _ (List.mem_map_of_mem he))]
      have hadditional : ∀ part ∈ additionalParts raw,
          (checks part).findSome? Check.fault? = faultOf (ofValue part) := fun part hpart =>
        (ih part (List.mem_append_right _ hpart)).symm
      rw [faultOf_object h, checks_object h, List.append_assoc, List.findSome?_append,
        List.cons_append, findSome?_cons_eq_or, List.findSome?_append, findSome?_flatMap,
        findSome?_flatMap, findSome?_congr hproperty, findSome?_congr hadditional,
        findSome?_cons_eq_or, List.findSome?_singleton]
    · rw [faultOf_of_ne_object h, checks_of_ne_object h, List.findSome?_append, findSome?_flatMap,
        findSome?_congr ih]

end Schema

/-! ## The checks that are made -/

/-- A check is one of the value itself or is made by one of its parts. -/
theorem mem_checks_cases {raw : Value} {check : Check} : check ∈ checks raw ↔
    check ∈ Check.own raw ∨ ∃ part ∈ parts raw, check ∈ checks part := by
  by_cases h : taken raw = .object
  · have hkeys : keys raw = (properties raw).map (·.1) := by rw [keys, h]
    have hown : check ∈ Check.own raw ↔ (∃ e ∈ properties raw, check = .key raw e.1) ∨
        check = .collections raw ∨ check = .notes raw ∨ check = .names raw := by
      simp [Check.own, h, hkeys, eq_comm]
    have hproperties : check ∈ (properties raw).flatMap (fun e => .key raw e.1 :: checks e.2) ↔
        (∃ e ∈ properties raw, check = .key raw e.1) ∨
          ∃ part ∈ propertyParts raw, check ∈ checks part := by
      simp only [propertyParts, List.mem_flatMap, List.mem_cons, and_or_left, exists_or,
        List.mem_map, exists_exists_and_eq_and]
    rw [checks_object h, parts_object h, hown]
    simp only [List.mem_append, List.mem_cons, hproperties, List.mem_flatMap, List.not_mem_nil,
      or_and_right, exists_or, or_false]
    exact iff_of_eq (by ac_rfl)
  · rw [checks_of_ne_object h, List.mem_append, List.mem_flatMap]

/-- The checks are those of the values on the way. -/
theorem mem_checks_iff {raw : Value} {check : Check} :
    check ∈ checks raw ↔ ∃ v, Reaches raw v ∧ check ∈ Check.own v := by
  induction raw using parts_induction with
  | h raw ih =>
    have hstep (v : Value) : Reaches raw v ↔ raw = v ∨ ∃ part ∈ parts raw, Reaches part v :=
      Relation.ReflTransGen.cases_head_iff
    rw [mem_checks_cases]
    constructor
    · rintro (h | ⟨part, hpart, h⟩)
      · exact ⟨raw, .refl, h⟩
      · obtain ⟨v, hreaches, hv⟩ := (ih part hpart).1 h
        exact ⟨v, .head hpart hreaches, hv⟩
    · rintro ⟨v, hreaches, hv⟩
      rcases (hstep v).1 hreaches with rfl | ⟨part, hpart, hreaches⟩
      · exact .inl hv
      · exact .inr ⟨part, hpart, (ih part hpart).2 ⟨v, hreaches, hv⟩⟩

/-! ## The schemas that are read -/

namespace Schema

/-- The variant of a schema. -/
def variant : Schema → Variant
  | .primitive p => .primitive p.kind
  | .array _ => .array
  | .object _ _ _ _ => .object
  | .reference _ => .reference
  | .combinator kind _ => .combinator kind
  | .unknown _ => .unknown

/-- The schemas that a schema is made of. -/
def parts : Schema → List Schema
  | .array element => [element]
  | .object properties _ additional _ =>
    properties.map (·.2) ++ match additional with | .schema s => [s] | .allowed _ => []
  | .combinator _ members => members
  | _ => []

/-- The second schema is the first one or stands in it. -/
def Contains : Schema → Schema → Prop :=
  Relation.ReflTransGen fun s part => part ∈ s.parts

theorem exists_mem_of_mapM_eq_ok {ε α β : Type} {f : α → Except ε β} {l : List α} {rs : List β}
    (h : l.mapM f = .ok rs) {b : β} (hb : b ∈ rs) : ∃ a ∈ l, f a = .ok b :=
  (exists_mem_of_mapM (P := fun a => f a = .ok b) (Q := fun c => c = b)
    (fun a c hc => by rw [hc, Except.ok.injEq]) h).1 ⟨b, hb, rfl⟩

theorem exists_mem_of_ofProperties {entries : List (Value × Value)}
    {properties : List (String × Schema)} (h : ofProperties entries = .ok properties)
    {p : String × Schema} (hp : p ∈ properties) : ∃ e ∈ entries, ofValue e.2 = .ok p.2 := by
  rw [ofProperties_eq_mapM] at h
  obtain ⟨e, he, hread⟩ := exists_mem_of_mapM_eq_ok h hp
  exact ⟨e, he, (ofProperty_eq_ok.1 hread).2.2⟩

theorem exists_mem_of_ofAdditional {raw : Value} {additional : Additional Schema} {t : Schema}
    (h : ofAdditional raw = .ok additional)
    (ht : t ∈ match additional with | .schema s => [s] | .allowed _ => []) :
    ∃ part ∈ Form.additionalParts raw, ofValue part = .ok t := by
  cases raw with
  | bool yes =>
    rw [ofAdditional] at h
    cases h
    cases ht
  | _ =>
    simp only [ofAdditional] at h
    obtain ⟨s, hs, rfl⟩ := exists_of_map_eq_ok h
    rw [List.mem_singleton.1 ht]
    exact ⟨_, List.mem_singleton_self _, hs⟩

/-- A value is read as a schema of the variant that it is taken as, and what the schema is made of
is read from the parts of the value. -/
theorem ofValue_eq_ok {raw : Value} {s : Schema} (h : ofValue raw = .ok s) :
    s.variant = taken raw ∧ ∀ t ∈ s.parts, ∃ part ∈ Variant.parts raw, ofValue part = .ok t := by
  by_cases hmap : ∃ entries, raw = .map entries
  · obtain ⟨entries, rfl⟩ := hmap
    rw [ofValue_map, Form.of_eq_as] at h
    rw [Variant.parts]
    cases htaken : taken (.map entries) with
    | array =>
      rw [htaken] at h
      obtain ⟨element, helement, rfl⟩ := exists_of_map_eq_ok h
      refine ⟨rfl, fun t ht => ⟨_, List.mem_singleton_self _, ?_⟩⟩
      rw [List.mem_singleton.1 ht]
      exact helement
    | object =>
      rw [htaken] at h
      obtain ⟨properties, hproperties, h⟩ := exists_of_bind_eq_ok h
      obtain ⟨-, -, h⟩ := exists_of_bind_eq_ok h
      obtain ⟨additional, hadditional, h⟩ := exists_of_bind_eq_ok h
      obtain ⟨-, -, h⟩ := exists_of_bind_eq_ok h
      obtain ⟨required, -, h⟩ := exists_of_bind_eq_ok h
      cases h
      refine ⟨rfl, fun t ht => ?_⟩
      rcases List.mem_append.1 ht with ht | ht
      · obtain ⟨p, hp, rfl⟩ := List.mem_map.1 ht
        obtain ⟨e, he, hread⟩ :=
          exists_mem_of_ofProperties hproperties (Assoc.mem_of_mem_ofPairs hp)
        exact ⟨e.2, List.mem_append_left _ (List.mem_map_of_mem he), hread⟩
      · obtain ⟨part, hpart, hread⟩ := exists_mem_of_ofAdditional hadditional ht
        exact ⟨part, List.mem_append_right _ hpart, hread⟩
    | primitive kind =>
      rw [htaken] at h
      obtain ⟨-, -, h⟩ := exists_of_bind_eq_ok h
      cases h
      exact ⟨rfl, fun t ht => absurd ht List.not_mem_nil⟩
    | combinator kind =>
      rw [htaken] at h
      obtain ⟨members, hmembers, rfl⟩ := exists_of_map_eq_ok h
      rw [ofMembers_eq_mapM] at hmembers
      exact ⟨rfl, fun t ht => exists_mem_of_mapM_eq_ok hmembers ht⟩
    | _ =>
      rw [htaken] at h
      cases h
      exact ⟨rfl, fun t ht => absurd ht List.not_mem_nil⟩
  · rw [ofValue_of_not_map fun entries he => hmap ⟨entries, he⟩] at h
    cases h
    refine ⟨?_, fun t ht => absurd ht List.not_mem_nil⟩
    by_contra hne
    exact hmap (exists_map_of_taken_ne (Ne.symm hne))

/-- What stands in a schema is read from a value that is read on the way. -/
theorem exists_reaches_of_contains {raw : Value} {s t : Schema} (h : ofValue raw = .ok s)
    (hcontains : s.Contains t) : ∃ v, Reaches raw v ∧ ofValue v = .ok t := by
  induction hcontains with
  | refl => exact ⟨raw, .refl, h⟩
  | tail _ ht ih =>
    obtain ⟨v, hreaches, hv⟩ := ih
    obtain ⟨part, hpart, hread⟩ := (ofValue_eq_ok hv).2 _ ht
    exact ⟨part, hreaches.tail hpart, hread⟩

theorem misnames_iff {raw : Value} :
    Misnames raw ↔ taken raw = .object ∧ ∃ r ∈ required raw, ∀ s, r ≠ .text s := by
  constructor
  · rintro ⟨entries, properties, names, additional, rfl, hform, hnames⟩
    rw [Form.of_eq_as] at hform
    cases htaken : taken (.map entries) <;> rw [htaken] at hform <;> cases hform
    exact ⟨rfl, hnames⟩
  · rintro ⟨htaken, hnames⟩
    obtain ⟨entries, rfl⟩ := exists_map_of_taken_ne (show taken raw ≠ .unknown by simp [htaken])
    have hform := Form.of_eq_as entries
    rw [htaken] at hform
    exact ⟨entries, _, _, _, rfl, hform, hnames⟩

/-- If a value is read, then every value on the way is. -/
theorem exists_of_reaches {raw v : Value} {s : Schema} (h : ofValue raw = .ok s)
    (hreaches : Reaches raw v) : ∃ t, ofValue v = .ok t := by
  refine exists_of_not_fails ?_
  have hraw : ¬ Fails (ofValue raw) := by rw [h]; exact not_fails_ok s
  rw [fails_ofValue] at hraw ⊢
  rintro ⟨object, hvisits, hmisnames⟩
  refine hraw ⟨object, ?_, hmisnames⟩
  exact reaches_iff_visits.1 (hreaches.trans (reaches_iff_visits.2 hvisits))

/-- Reading a value as a schema fails exactly if a value read on the way is taken as an object and
has a required name that is no text, or has a key or a note without a text. The checks are those of
the values on the way, and reading ends with the fault that the first check to find one finds.
Without a fault, every value on the way is read as a schema of the variant that it is taken as, and
these schemas are all that the result is made of. -/
theorem ofValue_faults (raw : Value) :
    (Fails (ofValue raw) ↔
      (∃ object, Reaches raw object ∧ taken object = .object ∧
        ∃ r ∈ required object, ∀ s, r ≠ .text s) ∨
      ∃ v, Reaches raw v ∧ ∃ t ∈ keys v ++ Variant.notes v, t.hasText = false) ∧
    (∀ check, check ∈ checks raw ↔ ∃ v, Reaches raw v ∧ check ∈ Check.own v) ∧
    (∀ fault, ofValue raw = .error fault ↔ ∃ before check after,
      checks raw = before ++ check :: after ∧ check.fault? = some fault ∧
        ∀ earlier ∈ before, earlier.fault? = none) ∧
    ∀ s, ofValue raw = .ok s →
      (∀ v, Reaches raw v → ∃ t, ofValue v = .ok t ∧ t.variant = taken v) ∧
      ∀ t, s.Contains t → ∃ v, Reaches raw v ∧ ofValue v = .ok t := by
  have hfirst (fault : SchemaFault) : ofValue raw = .error fault ↔
      (checks raw).findSome? Check.fault? = some fault := by
    rw [← faultOf_ofValue, faultOf_eq_some]
  refine ⟨?_, fun check => mem_checks_iff, fun fault => ?_, fun s hs => ⟨fun v hv => ?_, fun t =>
    exists_reaches_of_contains hs⟩⟩
  · simp only [fails_ofValue, Refused, reaches_iff_visits, misnames_iff, Textless, asked_eq,
      and_or_left, exists_or]
  · rw [hfirst, List.findSome?_eq_some_iff]
  · obtain ⟨t, ht⟩ := exists_of_reaches hs hv
    exact ⟨t, ht, (ofValue_eq_ok ht).1⟩

/-- An object without a type that requires a number. -/
def requiringNumber : Value :=
  .map [(.text "properties", .map []), (.text "required", .list [.int 1])]

/-- An object that requires a list, with a property of its own that is refused. -/
def requiringList : Value :=
  .map [(.text "type", .text "object"), (.text "required", .list [.list []]),
    (.text "properties", .map [(.text "inner", requiringNumber)])]

/-- The number is found before the list, because the properties are read first. -/
theorem ofValue_faults_requiringList : ofValue requiringList = .error .requiredNotText := by
  have hinner : checks requiringNumber =
      [.collections requiringNumber, .notes requiringNumber, .names requiringNumber] := by
    rw [checks_object (by decide)]
    rfl
  have hchecks : checks requiringList =
      [.key requiringList (.text "inner"), .collections requiringNumber, .notes requiringNumber] ++
        .names requiringNumber ::
          [.collections requiringList, .notes requiringList, .names requiringList] := by
    have hproperties : properties requiringList = [(.text "inner", requiringNumber)] := rfl
    have hadditional : additionalParts requiringList = [] := rfl
    rw [checks_object (by decide), hproperties, hadditional, List.flatMap_cons, hinner]
    rfl
  exact ((ofValue_faults requiringList).2.2.1 _).2 ⟨_, _, _, hchecks, by decide, by decide⟩

/-- A description is at fault here, and no required name. -/
theorem not_fails_ofValue_iff_required : ¬ ∀ raw, Fails (ofValue raw) ↔
    ∃ object, Reaches raw object ∧ taken object = .object ∧
      ∃ r ∈ required object, ∀ s, r ≠ .text s := by
  intro h
  obtain ⟨object, hreaches, hnames⟩ :=
    (h _).1 ((fails_ofValue _).2 refused_describedByNumber)
  exact not_misnames_of_visits_describedByNumber (reaches_iff_visits.1 hreaches)
    (misnames_iff.2 hnames)

end Schema

end TypedClient
