import Mathlib.Data.List.Permutation
import TypedClient.Proofs.Endpoints.Rearranged
import TypedClient.Proofs.Failure.Checks
import TypedClient.Proofs.Signatures

/-!
# Schemas in another style

The type of a schema depends on a few keys only and not on where they stand. A value is restyled if,
in the schemas of which it consists, keys are put in another order and other keys are added or
removed (`Restyled`). The values under the keys that count are then the same or restyled
(`Restyled.rel_find?`), so both values are taken as the same variant (`Restyled.taken_eq`). What is
read beside them are formats and descriptions, and these have to have texts. If they have, a
restyled value is read if the first one is, as a schema of the same type
(`Schema.readsAlike_of_restyled`), and restyled declarations leave all types as they are
(`Registry.SameTypes.type_eq`).
-/

namespace TypedClient

open Value Variant TypeExpr

/-- Reading related items one by one gives related results. -/
theorem exists_mapM_of_forall₂ {ε α α' β β' : Type} {f : α → Except ε β} {g : α' → Except ε β'}
    {R : α → α' → Prop} {S : β → β' → Prop} {as : List α} {as' : List α'}
    (h : List.Forall₂ R as as')
    (hfg : ∀ a ∈ as, ∀ a' ∈ as', R a a' → ∀ b, f a = .ok b → ∃ b', g a' = .ok b' ∧ S b b') :
    ∀ bs, as.mapM f = .ok bs → ∃ bs', as'.mapM g = .ok bs' ∧ List.Forall₂ S bs bs' := by
  induction h with
  | nil =>
    rintro bs hbs
    cases hbs
    exact ⟨[], rfl, .nil⟩
  | @cons a a' as as' ha _ ih =>
    intro bs hbs
    rw [List.mapM_cons] at hbs
    obtain ⟨b, hb, hbs⟩ := exists_of_bind_eq_ok hbs
    obtain ⟨bs, hrest, hbs⟩ := exists_of_bind_eq_ok hbs
    cases hbs
    obtain ⟨b', hb', hS⟩ := hfg a List.mem_cons_self a' List.mem_cons_self ha b hb
    obtain ⟨bs', hbs', hSs⟩ := ih (fun c hc c' hc' =>
      hfg c (List.mem_cons_of_mem _ hc) c' (List.mem_cons_of_mem _ hc')) bs hrest
    refine ⟨b' :: bs', ?_, .cons hS hSs⟩
    rw [List.mapM_cons, hb', hbs']
    rfl

/-! ## Restyled values -/

/-- The keys under which a schema or a list of schemas stands. -/
def schemaKeys : List String :=
  ["items", "additionalProperties", "oneOf", "allOf", "anyOf"]

/-- The keys that decide about the type of a schema. -/
def decisiveKeys : List String :=
  ["$ref", "type", "enum", "required", "properties"] ++ schemaKeys

/-- The entries that decide about the type. -/
def decisive (entries : List (Value × Value)) : List (Value × Value) :=
  entries.filter fun e => decisiveKeys.any fun key => e.1.isText key

mutual

/-- The second value is the first one with the keys of schemas in another order and with other
keys beside those that decide about types. -/
inductive Restyled : Value → Value → Prop
  | same (raw : Value) : Restyled raw raw
  | list {items items' : List Value} : List.Forall₂ Restyled items items' →
    Restyled (.list items) (.list items')
  | map {entries mid entries' : List (Value × Value)} : Distinct entries →
    (decisive entries).Perm mid → List.Forall₂ RestyledEntry mid (decisive entries') →
    Restyled (.map entries) (.map entries')

/-- The same key with the same value, with a restyled one if it is a schema, or with restyled
properties in their order. -/
inductive RestyledEntry : Value × Value → Value × Value → Prop
  | same (e : Value × Value) : RestyledEntry e e
  | schema {key : String} {raw raw' : Value} : key ∈ schemaKeys → Restyled raw raw' →
    RestyledEntry (.text key, raw) (.text key, raw')
  | properties {ps ps' : List (Value × Value)} : List.Forall₂ RestyledProperty ps ps' →
    RestyledEntry (.text "properties", .map ps) (.text "properties", .map ps')

/-- The same name with a restyled schema. -/
inductive RestyledProperty : Value × Value → Value × Value → Prop
  | property (name : Value) {raw raw' : Value} : Restyled raw raw' →
    RestyledProperty (name, raw) (name, raw')

end

variable {entries entries' : List (Value × Value)} {key : String} {raw raw' v v' : Value}

/-! ## What stands under a key -/

theorem distinct_decisive (h : Distinct entries) : Distinct (decisive entries) :=
  List.Pairwise.sublist (List.filter_sublist.map Prod.fst) h

theorem find?_decisive (hkey : key ∈ decisiveKeys) :
    Value.find? (decisive entries) key = Value.find? entries key := by
  rw [Value.find?, Value.find?, decisive, List.find?_filter]
  refine congrArg (fun p => (entries.find? p).map (·.2)) (funext fun e => ?_)
  cases he : e.1.isText key with
  | false => simp
  | true => simpa using ⟨key, hkey, he⟩

/-- What stands under a key that counts is the same or restyled. -/
theorem Restyled.rel_find? (h : Restyled (.map entries) (.map entries')) (key : String)
    (hkey : key ∈ decisiveKeys) :
    Option.Rel (fun v v' => RestyledEntry (.text key, v) (.text key, v'))
      (Value.find? entries key) (Value.find? entries' key) := by
  cases h with
  | same =>
    cases Value.find? entries key with
    | none => exact .none
    | some v => exact .some (.same _)
  | @map _ mid _ hdistinct hperm hentries =>
    have hmid : Entrywise (fun key v v' => RestyledEntry (key, v) (key, v')) mid
        (decisive entries') := by
      refine hentries.imp fun e e' he => ?_
      cases he with
      | same => exact ⟨rfl, .same _⟩
      | schema hkey hraw => exact ⟨rfl, .schema hkey hraw⟩
      | properties hps => exact ⟨rfl, .properties hps⟩
    have hfind := hmid.find? key
    rwa [find?_perm (distinct_decisive hdistinct) hperm, find?_decisive hkey,
      find?_decisive hkey] at hfind

theorem RestyledEntry.eq (h : RestyledEntry (.text key, v) (.text key, v'))
    (hkey : key ∉ "properties" :: schemaKeys) : v = v' := by
  cases h with
  | same => rfl
  | schema hschema => exact absurd (List.mem_cons_of_mem _ hschema) hkey
  | properties => exact absurd List.mem_cons_self hkey

theorem RestyledEntry.restyled (h : RestyledEntry (.text key, v) (.text key, v'))
    (hkey : key ∈ schemaKeys) : Restyled v v' := by
  cases h with
  | same => exact .same v
  | schema _ hraw => exact hraw
  | properties => exact absurd hkey (by decide)

theorem RestyledEntry.properties_cases
    (h : RestyledEntry (.text "properties", v) (.text "properties", v')) :
    List.Forall₂ RestyledProperty (Form.entriesOf v) (Form.entriesOf v') := by
  cases h with
  | same => exact List.forall₂_same.2 fun p _ => .property p.1 (.same p.2)
  | schema hkey => exact absurd hkey (by decide)
  | properties hps => exact hps

theorem Restyled.items (h : Restyled v v') :
    List.Forall₂ Restyled (Form.itemsOf v) (Form.itemsOf v') := by
  cases h with
  | same => exact List.forall₂_same.2 fun item _ => .same item
  | list hitems => exact hitems
  | map => exact .nil

theorem Restyled.additionalParts (h : Restyled v v') :
    List.Forall₂ Restyled (Form.additionalParts v) (Form.additionalParts v') := by
  cases h with
  | same => exact List.forall₂_same.2 fun part _ => .same part
  | list hitems => exact .cons (.list hitems) .nil
  | map hdistinct hperm hentries => exact .cons (.map hdistinct hperm hentries) .nil

theorem Restyled.isList_eq (h : Restyled v v') : isList v = isList v' := by
  cases h <;> rfl

theorem restyled_getD {o o' : Option Value} (h : Option.Rel Restyled o o') (default : Value) :
    Restyled (o.getD default) (o'.getD default) := by
  cases h with
  | some h => exact h
  | none => exact .same default

namespace Restyled

variable (h : Restyled (.map entries) (.map entries'))

include h

/-- Under the keys that hold no schemas there is the same. -/
theorem get_eq (key : String) (hkey : key ∈ decisiveKeys)
    (hplain : key ∉ "properties" :: schemaKeys) :
    Value.get entries key = Value.get entries' key := by
  rw [Value.get, Value.get, eq_of_rel (fun _ _ hentry => hentry.eq hplain) (h.rel_find? key hkey)]

theorem rel_schema (key : String) (hkey : key ∈ schemaKeys) :
    Option.Rel Restyled (Value.find? entries key) (Value.find? entries' key) :=
  rel_imp (fun _ _ hentry => hentry.restyled hkey) (h.rel_find? key (List.mem_append_right _ hkey))

theorem get_schema (key : String) (hkey : key ∈ schemaKeys) :
    Restyled (Value.get entries key) (Value.get entries' key) :=
  restyled_getD (h.rel_schema key hkey) .null

theorem properties : (Value.find? entries "properties").isSome =
      (Value.find? entries' "properties").isSome ∧
    List.Forall₂ RestyledProperty (Form.entriesOf (Value.get entries "properties"))
      (Form.entriesOf (Value.get entries' "properties")) := by
  have hrel := h.rel_find? "properties" (by decide)
  unfold Value.get
  revert hrel
  rcases Value.find? entries "properties" with _ | v <;>
    rcases Value.find? entries' "properties" with _ | v' <;> intro hrel <;> cases hrel
  · exact ⟨rfl, .nil⟩
  · rename_i hentry
    exact ⟨rfl, hentry.properties_cases⟩

theorem admits_eq (variant : Variant) : variant.admits entries = variant.admits entries' := by
  have htype := h.get_eq "type" (by decide) (by decide)
  cases variant with
  | reference => simp only [admits, h.get_eq "$ref" (by decide) (by decide)]
  | object => simp only [admits, htype, h.properties.1]
  | combinator kind =>
    exact (h.get_schema kind.keyword (by cases kind <;> decide)).isList_eq
  | unknown => rfl
  | _ => simp only [admits, htype]

/-- Both values are taken as the same variant. -/
theorem taken_eq : taken (.map entries) = taken (.map entries') := by
  rw [taken, taken, Form.entriesOf, Form.entriesOf, funext h.admits_eq]

end Restyled

/-! ## Schemas of the same type -/

namespace Schema

/-- The schemas have the same type in every registry, whatever is visited, and list the same choices
there. -/
structure SameType (s s' : Schema) : Prop where
  type : ∀ reg visited, ofSchema reg visited s = ofSchema reg visited s'
  literals : ∀ reg visited, s.literals reg visited = s'.literals reg visited

namespace SameType

theorem refl (s : Schema) : SameType s s := ⟨fun _ _ => rfl, fun _ _ => rfl⟩

theorem primitive {p p' : Primitive} (hkind : p.kind = p'.kind)
    (hchoices : p.choices = p'.choices) : SameType (.primitive p) (.primitive p') where
  type reg visited := by rw [ofSchema, ofSchema, ofPrimitive, ofPrimitive, hkind, hchoices]
  literals reg visited := by
    rw [Schema.literals, Schema.literals, Primitive.literals, Primitive.literals, hkind, hchoices]

theorem unknown (raw raw' : Value) : SameType (.unknown raw) (.unknown raw') where
  type reg visited := by rw [ofSchema, ofSchema]
  literals reg visited := by rw [Schema.literals, Schema.literals]

theorem array {s s' : Schema} (h : SameType s s') : SameType (.array s) (.array s') where
  type reg visited := by rw [ofSchema, ofSchema, h.type]
  literals reg visited := by rw [Schema.literals, Schema.literals, h.literals]

theorem combinator (kind : CombinatorKind) {ss ss' : List Schema}
    (h : List.Forall₂ SameType ss ss') :
    SameType (.combinator kind ss) (.combinator kind ss') where
  type reg visited := by
    rw [ofSchema, ofSchema, ofMembers_eq_map, ofMembers_eq_map,
      Place.map_eq_of_forall₂ h fun s _ s' hs => hs.type reg visited]
  literals reg visited := by
    rw [Schema.literals, Schema.literals, memberLiterals_eq_flatMap, memberLiterals_eq_flatMap,
      List.flatMap_def, List.flatMap_def,
      Place.map_eq_of_forall₂ h fun s _ s' hs => hs.literals reg visited]

theorem object {ps ps' : List (String × Schema)}
    (h : List.Forall₂ (fun p p' => p.1 = p'.1 ∧ SameType p.2 p'.2) ps ps') (required : List String)
    (additional additional' : Additional Schema) (description description' : Option String) :
    SameType (.object ps required additional description)
      (.object ps' required additional' description') where
  type reg visited := by
    have hempty : ps.isEmpty = ps'.isEmpty := by cases h <;> rfl
    rw [ofSchema, ofSchema, ofProperties_eq_map, ofProperties_eq_map, hempty,
      Place.map_eq_of_forall₂ h fun p _ p' hp => ?_]
    rw [keyOf, keyOf, hp.1, hp.2.type reg visited]
  literals reg visited := by
    rw [Schema.literals, Schema.literals, propertyLiterals_eq_flatMap, propertyLiterals_eq_flatMap,
      List.flatMap_def, List.flatMap_def,
      Place.map_eq_of_forall₂ h fun p _ p' hp => hp.2.literals reg visited]

end SameType

/-! ## Reading a restyled value -/

/-- The formats and descriptions that are read with the value have texts. -/
def NotesHaveTexts (raw : Value) : Prop :=
  ∀ part, Reaches raw part → ∀ v ∈ notes part, v.hasText = true

theorem NotesHaveTexts.of_mem_parts (h : NotesHaveTexts raw) {part : Value}
    (hpart : part ∈ Variant.parts raw) : NotesHaveTexts part :=
  fun _ hreaches => h _ (.head hpart hreaches)

/-- What is read has notes with texts. -/
theorem notesHaveTexts_of_ofValue_eq_ok {s : Schema} (h : ofValue raw = .ok s) :
    NotesHaveTexts raw := by
  intro part hreaches v hv
  by_contra hnone
  have hasked : v ∈ asked part := asked_eq part ▸ List.mem_append_right _ hv
  have hrefused : Refused raw :=
    ⟨part, reaches_iff_visits.1 hreaches, .inr ⟨v, hasked, Bool.eq_false_iff.2 hnone⟩⟩
  exact not_fails_ok s (h ▸ (fails_ofValue raw).2 hrefused)

/-- If the first value is read as a schema and the notes of the second one have texts, the second
one is read as a schema of the same type. -/
def ReadsAlike (raw raw' : Value) : Prop :=
  NotesHaveTexts raw' →
    ∀ s, ofValue raw = .ok s → ∃ s', ofValue raw' = .ok s' ∧ SameType s s'

/-- All restyled values of the parts are read alike. -/
def PartsReadAlike (parts : List Value) : Prop :=
  ∀ part ∈ parts, ∀ part', Restyled part part' → ReadsAlike part part'

theorem exists_additional {additional : Additional Schema} (h : Restyled v v')
    (hparts : PartsReadAlike (Form.additionalParts v))
    (hnotes : ∀ part' ∈ Form.additionalParts v', NotesHaveTexts part')
    (hv : ofAdditional v = .ok additional) :
    ∃ additional', ofAdditional v' = .ok additional' := by
  refine exists_of_not_fails fun hfails => ?_
  obtain ⟨part', hpart', hfails⟩ := (fails_ofAdditional v').1 hfails
  obtain ⟨part, hpart, hrestyled⟩ := exists_mem_of_forall₂ h.additionalParts hpart'
  have hread : ¬ Fails (ofValue part) := fun hpartfails => by
    have hadditional := (fails_ofAdditional v).2 ⟨part, hpart, hpartfails⟩
    rw [hv] at hadditional
    exact not_fails_ok _ hadditional
  obtain ⟨s, hs⟩ := exists_of_not_fails hread
  obtain ⟨s', hs', -⟩ := hparts part hpart part' hrestyled (hnotes part' hpart') s hs
  rw [hs'] at hfails
  exact not_fails_ok s' hfails

theorem exists_properties {ps ps' : List (Value × Value)} (h : List.Forall₂ RestyledProperty ps ps')
    (hparts : PartsReadAlike (ps.map (·.2)))
    (hnotes : ∀ part' ∈ ps'.map (·.2), NotesHaveTexts part')
    {properties : List (String × Schema)} (hps : ofProperties ps = .ok properties) :
    ∃ properties', ofProperties ps' = .ok properties' ∧
      List.Forall₂ (fun p p' => p.1 = p'.1 ∧ SameType p.2 p'.2) properties properties' := by
  rw [ofProperties_eq_mapM] at hps ⊢
  refine exists_mapM_of_forall₂ h (fun p hp p' hp' hrestyled b hb => ?_) properties hps
  obtain ⟨hkey, hname, hs⟩ := ofProperty_eq_ok.1 hb
  cases hrestyled with
  | @property name raw raw' hraw =>
    obtain ⟨s', hs', htype⟩ := hparts raw (List.mem_map_of_mem (f := (·.2)) hp) raw' hraw
      (hnotes raw' (List.mem_map_of_mem (f := (·.2)) hp')) b.2 hs
    exact ⟨(name.display, s'), ofProperty_eq_ok.2 ⟨hkey, rfl, hs'⟩, hname, htype⟩

theorem readsAlike_object (h : Restyled (.map entries) (.map entries'))
    (hobject : taken (.map entries) = .object)
    (hparts : PartsReadAlike (Variant.parts (.map entries))) :
    ReadsAlike (.map entries) (.map entries') := by
  intro hnotes s hs
  have hobject' : taken (.map entries') = .object := h.taken_eq ▸ hobject
  have hpart' : ∀ part' ∈ propertyParts (.map entries') ++ Variant.additionalParts (.map entries'),
      NotesHaveTexts part' := by
    rw [← parts_object hobject']
    exact fun _ => hnotes.of_mem_parts
  -- the description may be new, so its text is the one check that `hs` does not answer
  have hdescription : (Value.get entries' "description").hasText = true := by
    refine hnotes _ .refl _ ?_
    rw [notes, hobject']
    exact List.mem_singleton_self _
  rw [parts_object hobject] at hparts
  rw [ofValue_map, Form.of_eq_as, hobject] at hs
  rw [ofValue_map, Form.of_eq_as, hobject']
  obtain ⟨properties, hproperties, hs⟩ := exists_of_bind_eq_ok hs
  obtain ⟨_, hkeys, hs⟩ := exists_of_bind_eq_ok hs
  obtain ⟨additional, hadditional, hs⟩ := exists_of_bind_eq_ok hs
  obtain ⟨_, -, hs⟩ := exists_of_bind_eq_ok hs
  obtain ⟨required, hrequired, hs⟩ := exists_of_bind_eq_ok hs
  cases hs
  obtain ⟨properties', hproperties', htypes⟩ := exists_properties h.properties.2
    (fun part hpart => hparts part (List.mem_append_left _ hpart))
    (fun part' hpart => hpart' part' (List.mem_append_left _ hpart)) hproperties
  have hrestyled := restyled_getD (h.rel_schema "additionalProperties" (by decide))
    (.bool true)
  obtain ⟨additional', hadditional'⟩ := exists_additional hrestyled
    (fun part hpart => hparts part (List.mem_append_right _ hpart))
    (fun part' hpart => hpart' part' (List.mem_append_right _ hpart)) hadditional
  have hnames := h.get_eq "required" (by decide) (by decide)
  rw [hnames] at hkeys hrequired
  refine ⟨.object (Assoc.ofPairs properties') required additional'
    (Value.get entries' "description").optionalText, ?_, ?_⟩
  · have htext : requireTexts SchemaFault.noText [Value.get entries' "description"] = .ok () :=
      requireTexts_eq_ok.2 (by simpa using hdescription)
    simp only [Form.as, ofForm, hproperties', hkeys, hadditional', htext, hrequired]
    rfl
  · exact .object (Assoc.forall₂_ofPairs htypes) _ _ _ _ _

theorem readsAlike_map (h : Restyled (.map entries) (.map entries'))
    (hparts : PartsReadAlike (Variant.parts (.map entries))) :
    ReadsAlike (.map entries) (.map entries') := by
  by_cases hobject : taken (.map entries) = .object
  · exact readsAlike_object h hobject hparts
  · intro hnotes s hs
    have hpart' : ∀ part' ∈ Variant.parts (.map entries'), NotesHaveTexts part' :=
      fun _ hmem => hnotes.of_mem_parts hmem
    have hown := hnotes _ .refl
    rw [ofValue_map, Form.of_eq_as] at hs
    rw [ofValue_map, Form.of_eq_as]
    rw [Variant.parts] at hparts hpart'
    rw [notes] at hown
    rw [← h.taken_eq] at hpart' hown ⊢
    cases htaken : taken (.map entries) <;> rw [htaken] at hs hparts hpart' hown
    case object => exact absurd htaken hobject
    case reference =>
      cases hs
      refine ⟨_, rfl, ?_⟩
      rw [h.get_eq "$ref" (by decide) (by decide)]
      exact .refl _
    case primitive kind =>
      obtain ⟨_, -, hs⟩ := exists_of_bind_eq_ok hs
      cases hs
      have htexts : requireTexts SchemaFault.noText (notesOf entries') = .ok () :=
        requireTexts_eq_ok.2 hown
      refine ⟨.primitive (primitiveOf entries' kind), ?_, .primitive rfl ?_⟩
      · simp only [Form.as, ofForm, htexts]
        rfl
      rw [primitiveOf, primitiveOf, h.get_eq "enum" (by decide) (by decide)]
    case array =>
      obtain ⟨element, helement, rfl⟩ := exists_of_map_eq_ok hs
      obtain ⟨element', helement', htype⟩ := hparts _ (List.mem_singleton_self _) _
        (h.get_schema "items" (by decide)) (hpart' _ (List.mem_singleton_self _)) element helement
      exact ⟨.array element', by simp only [Form.as, ofForm, helement']; rfl, .array htype⟩
    case combinator kind =>
      obtain ⟨members, hmembers, rfl⟩ := exists_of_map_eq_ok hs
      rw [ofMembers_eq_mapM] at hmembers
      have hitems := (h.get_schema kind.keyword (by cases kind <;> decide)).items
      obtain ⟨members', hmembers', htypes⟩ := exists_mapM_of_forall₂ hitems
        (fun part hpart part' hmem hrestyled => hparts part hpart part' hrestyled
          (hpart' part' hmem)) members hmembers
      refine ⟨.combinator kind members', ?_, .combinator kind htypes⟩
      simp only [Form.as, ofForm, ofMembers_eq_mapM, hmembers']
      rfl
    case unknown =>
      cases hs
      exact ⟨_, rfl, .unknown _ _⟩

/-- A restyled value whose notes have texts is read as a schema of the same type. -/
theorem readsAlike_of_restyled (h : Restyled raw raw') : ReadsAlike raw raw' := by
  induction raw using parts_induction generalizing raw' with
  | h raw ih =>
    cases hcases : h with
    | same => exact fun _ s hs => ⟨s, hs, .refl s⟩
    | list =>
      intro _ s hs
      rw [ofValue_of_not_map (by simp)] at hs
      cases hs
      exact ⟨_, ofValue_of_not_map (by simp), .unknown _ _⟩
    | map => exact readsAlike_map h fun part hpart part' => ih part hpart

end Schema

/-! ## Restyled declarations -/

theorem forall₂_names_zip {α : Type} {S : α → α → Prop} {as as' : List α}
    (h : List.Forall₂ S as as') : ∀ names : List String,
      List.Forall₂ (fun e e' => e.1 = e'.1 ∧ S e.2 e'.2) (names.zip as) (names.zip as') := by
  induction h with
  | nil => exact fun names => by simp only [List.zip_nil_right, List.Forall₂.nil]
  | cons ha _ ih =>
    rintro (_ | ⟨name, names⟩)
    · exact .nil
    · exact .cons ⟨rfl, ha⟩ (ih names)

namespace Registry

variable {reg reg' : Registry}

/-- The same names in the same order, each for a schema of the same type. -/
def SameTypes (reg reg' : Registry) : Prop :=
  List.Forall₂ (fun e e' => e.1 = e'.1 ∧ e.2.SameType e'.2) reg.entries reg'.entries

/-- The values under the same names in the same order, each of them restyled. -/
def Restyles (raws raws' : List (String × Value)) : Prop :=
  List.Forall₂ (fun e e' => e.1 = e'.1 ∧ Restyled e.2 e'.2) raws raws'

theorem exists_ofValues {raws raws' : List (String × Value)} (h : Restyles raws raws')
    (hnotes : ∀ e ∈ raws', Schema.NotesHaveTexts e.2) (hreg : ofValues raws = .ok reg) :
    ∃ reg', ofValues raws' = .ok reg' ∧ SameTypes reg reg' := by
  have hnames : raws.map (·.1) = raws'.map (·.1) := Assoc.names_eq_of_forall₂ h
  have hraws : List.Forall₂ Restyled (raws.map (·.2)) (raws'.map (·.2)) := by
    rw [List.forall₂_map_left_iff, List.forall₂_map_right_iff]
    exact h.imp fun _ _ he => he.2
  have hnotes' : ∀ raw' ∈ raws'.map (·.2), Schema.NotesHaveTexts raw' :=
    List.forall_mem_map.2 hnotes
  obtain ⟨schemas, hschemas, rfl⟩ := exists_of_map_eq_ok hreg
  rw [Schema.ofMembers_eq_mapM] at hschemas
  obtain ⟨schemas', hschemas', htypes⟩ := exists_mapM_of_forall₂ hraws
    (fun raw _ raw' hraw' hraw => Schema.readsAlike_of_restyled hraw (hnotes' raw' hraw'))
    schemas hschemas
  refine ⟨ofPairs ((raws'.map (·.1)).zip schemas'), ?_, ?_⟩
  · rw [ofValues, Schema.ofMembers_eq_mapM, hschemas']
    rfl
  · rw [← hnames]
    exact Assoc.forall₂_ofPairs (forall₂_names_zip htypes _)

theorem SameTypes.rel_target? (h : SameTypes reg reg') (visited : List String) (ref : String) :
    Option.Rel Schema.SameType (Place.target? reg visited ref)
      (Place.target? reg' visited ref) := by
  unfold Place.target?
  split
  · exact .none
  · exact Assoc.rel_find? h _

/-- From a place the same is called, be it with other declarations of the same types. -/
theorem SameTypes.forall₂_calls (h : SameTypes reg reg') (p : Place) :
    List.Forall₂ (fun p q => p.visited = q.visited ∧ p.schema.SameType q.schema) (p.calls reg)
      (p.calls reg') := by
  refine Place.forall₂_calls (s := p.schema) (fun s _ => ⟨rfl, .refl s⟩) fun ref _ => ?_
  have hrel := h.rel_target? p.visited ref
  simp only [Place.calls]
  revert hrel
  generalize Place.target? reg p.visited ref = target
  generalize Place.target? reg' p.visited ref = target'
  rintro (htype | _)
  · exact .cons ⟨rfl, htype⟩ .nil
  · exact .nil

/-- Declarations of the same types leave the type at every place as it is. The target changes on the
way from one registry to the other, the visited names do not. -/
theorem SameTypes.type_eq (h : SameTypes reg reg') (p : Place) : p.type reg = p.type reg' := by
  induction p using (Place.wellFounded_calls reg).induction with
  | _ p ih =>
    rw [Place.type_eq_assemble, Place.type_eq_assemble]
    refine congrArg _ (Place.map_eq_of_forall₂ (h.forall₂_calls p) fun a ha b hab => ?_)
    rw [ih a ha, Place.type, Place.type, hab.1, hab.2.type reg' b.visited]

theorem SameTypes.literals_eq (h : SameTypes reg reg') (p : Place) :
    p.literals reg = p.literals reg' := by
  induction p using (Place.wellFounded_calls reg).induction with
  | _ p ih =>
    rw [Place.literals_eq, Place.literals_eq, List.flatMap_def, List.flatMap_def]
    refine congrArg (_ ++ List.flatten ·)
      (Place.map_eq_of_forall₂ (h.forall₂_calls p) fun a ha b hab => ?_)
    rw [ih a ha, Place.literals, Place.literals, hab.1, hab.2.literals reg' b.visited]

end Registry

namespace Schema

/-- The keys of schemas, wherever they stand, may be put in another order, and all keys beside
those that decide about types may be added, changed or removed: if the first value is read, a
restyled value is read exactly if its formats and descriptions have texts, and then it has the same
type text in every registry, at every level and whatever is visited, and lists the same choices in
it. With restyled declarations it is the same: they are read exactly if their formats and
descriptions have texts, and under the same names, and leave all type texts and choices as they
are. -/
theorem typeText_restyled :
    (∀ raw raw' s, Restyled raw raw' → ofValue raw = .ok s →
      ((∃ s', ofValue raw' = .ok s') ↔ NotesHaveTexts raw') ∧
      ∀ s', ofValue raw' = .ok s' → ∀ reg visited,
        s'.literals reg visited = s.literals reg visited ∧
        ∀ level, s'.typeText reg visited level = s.typeText reg visited level) ∧
    ∀ raws raws' reg, Registry.Restyles raws raws' → Registry.ofValues raws = .ok reg →
      ((∃ reg', Registry.ofValues raws' = .ok reg') ↔ ∀ e ∈ raws', NotesHaveTexts e.2) ∧
      ∀ reg', Registry.ofValues raws' = .ok reg' → reg'.names = reg.names ∧
        ∀ s visited, literals reg' visited s = literals reg visited s ∧
          ∀ level, typeText reg' visited level s = typeText reg visited level s := by
  constructor
  · intro raw raw' s hraw hs
    have hread := fun hnotes => readsAlike_of_restyled hraw hnotes s hs
    refine ⟨⟨fun ⟨s', hs'⟩ => notesHaveTexts_of_ofValue_eq_ok hs', fun hnotes => ?_⟩,
      fun s' hs' reg visited => ?_⟩
    · obtain ⟨s', hs', -⟩ := hread hnotes
      exact ⟨s', hs'⟩
    · obtain ⟨_, hs'', htype⟩ := hread (notesHaveTexts_of_ofValue_eq_ok hs')
      cases hs'.symm.trans hs''
      exact ⟨(htype.literals reg visited).symm,
        fun level => congrArg (render level) (htype.type reg visited).symm⟩
  · intro raws raws' reg hraws hreg
    have hread := fun hnotes => Registry.exists_ofValues hraws hnotes hreg
    have hnotes : ∀ reg', Registry.ofValues raws' = .ok reg' → ∀ e ∈ raws', NotesHaveTexts e.2 := by
      intro reg' hreg' e he
      obtain ⟨schemas', hschemas', -⟩ := exists_of_map_eq_ok hreg'
      rw [ofMembers_eq_mapM] at hschemas'
      obtain ⟨s', hs'⟩ := exists_of_not_fails fun hfails => not_fails_ok schemas'
        (hschemas' ▸ (fails_mapM ofValue _).2 ⟨e.2, List.mem_map_of_mem he, hfails⟩)
      exact notesHaveTexts_of_ofValue_eq_ok hs'
    refine ⟨⟨fun ⟨reg', hreg'⟩ => hnotes reg' hreg', fun hnotes => ?_⟩, fun reg' hreg' => ?_⟩
    · obtain ⟨reg', hreg', -⟩ := hread hnotes
      exact ⟨reg', hreg'⟩
    · obtain ⟨_, hreg'', htypes⟩ := hread (hnotes reg' hreg')
      cases hreg'.symm.trans hreg''
      refine ⟨(Assoc.names_eq_of_forall₂ htypes).symm, fun s visited =>
        ⟨(htypes.literals_eq ⟨visited, s⟩).symm, fun level => ?_⟩⟩
      exact congrArg (render level) (htypes.type_eq ⟨visited, s⟩).symm

/-- A pet with a tag for every pet. -/
def petEntries : List (Value × Value) := [
  (.text "type", .text "object"),
  (.text "title", .text "Pet"),
  (.text "properties", .map [
    (.text "name", .map [(.text "type", .text "string")]),
    (.text "tags", .map [
      (.text "type", .text "array"),
      (.text "items", .map [(.text "$ref", .text "#/components/schemas/Pet")])])]),
  (.text "required", .list [.text "name"])]

/-- The same pet with other notes, and with the keys that count in reverse. -/
def petEntriesRestyled : List (Value × Value) := [
  (.text "required", .list [.text "name"]),
  (.text "properties", .map [
    (.text "name", .map [(.text "format", .text "uuid"), (.text "type", .text "string")]),
    (.text "tags", .map [
      (.text "items", .map [
        (.int 1, .null),
        (.text "$ref", .text "#/components/schemas/Pet")]),
      (.text "type", .text "array")])]),
  (.text "type", .text "object")]

theorem restyled_pet : Restyled (.map petEntries) (.map petEntriesRestyled) := by
  have hname : Restyled (.map [(.text "type", .text "string")])
      (.map [(.text "format", .text "uuid"), (.text "type", .text "string")]) :=
    .map (by simp [Distinct]) (.refl _) (.cons (.same _) .nil)
  have hitems : Restyled (.map [(.text "$ref", .text "#/components/schemas/Pet")])
      (.map [(.int 1, .null), (.text "$ref", .text "#/components/schemas/Pet")]) :=
    .map (by simp [Distinct]) (.refl _) (.cons (.same _) .nil)
  have htags : Restyled
      (.map [(.text "type", .text "array"),
        (.text "items", .map [(.text "$ref", .text "#/components/schemas/Pet")])])
      (.map [(.text "items", .map [(.int 1, .null),
        (.text "$ref", .text "#/components/schemas/Pet")]), (.text "type", .text "array")]) :=
    .map (by simp [Distinct]) (List.reverse_perm _).symm
      (.cons (.schema (by decide) hitems) (.cons (.same _) .nil))
  refine .map (by simp [Distinct, petEntries]) (List.reverse_perm _).symm ?_
  exact .cons (.same _) (.cons (.properties (.cons (.property _ hname)
    (.cons (.property _ htags) .nil))) (.cons (.same _) .nil))

/-- Both pets can be declared and have the same type among both declarations. -/
theorem typeText_restyled_pet : ∃ pet pet' reg reg',
    ofValue (.map petEntries) = .ok pet ∧ ofValue (.map petEntriesRestyled) = .ok pet' ∧
      Registry.ofValues [("Pet", .map petEntries)] = .ok reg ∧
      Registry.ofValues [("Pet", .map petEntriesRestyled)] = .ok reg' ∧
      pet'.typeText reg' [] 0 = pet.typeText reg [] 0 := by
  have hfault : faultOf (ofValue (.map petEntries)) = none := by cbv
  obtain ⟨pet, hpet⟩ := exists_of_faultOf_eq_none hfault
  have hfault' : faultOf (ofValue (.map petEntriesRestyled)) = none := by cbv
  obtain ⟨pet', hpet'⟩ := exists_of_faultOf_eq_none hfault'
  have hread {raw : Value} {s : Schema} (hs : ofValue raw = .ok s) :
      Registry.ofValues [("Pet", raw)] = .ok (Registry.ofPairs [("Pet", s)]) := by
    simp only [Registry.ofValues, ofMembers_eq_mapM, List.map_cons, List.map_nil, List.mapM_cons,
      hs]
    rfl
  have htext := (typeText_restyled.1 _ _ pet restyled_pet hpet).2 pet' hpet'
  have htexts := (typeText_restyled.2 [("Pet", .map petEntries)] [("Pet", .map petEntriesRestyled)]
    _ (.cons ⟨rfl, restyled_pet⟩ .nil) (hread hpet)).2 _ (hread hpet')
  refine ⟨pet, pet', _, _, hpet, hpet', hread hpet, hread hpet', ?_⟩
  rw [(htexts.2 pet' []).2, (htext _ []).2]

/-- A description by a number without a text is one key too many: the schema is read without it and
refused with it. -/
theorem not_ofValue_of_restyled : ¬ ∀ raw raw' s, Restyled raw raw' → ofValue raw = .ok s →
    ∃ s', ofValue raw' = .ok s' ∧
      ∀ reg visited level, s'.typeText reg visited level = s.typeText reg visited level := by
  intro h
  have hrestyled : Restyled (.map [(.text "type", .text "string")]) describedByNumber :=
    .map (by simp [Distinct]) (.refl _) (.cons (.same _) .nil)
  obtain ⟨s', hs', -⟩ := h _ _ _ hrestyled (ofValue_primitive .string)
  exact not_fails_ok s' (hs' ▸ (fails_ofValue _).2 refused_describedByNumber)

end Schema

end TypedClient
