import TypedClient.Proofs.Failure.Outcome
import TypedClient.Proofs.Texts
import TypedClient.Schema.Reading

/-!
# Schemas that are refused

Reading a value as a schema reads the parts of its form, and the parts of these, and nothing else of
it (`Visits`). It fails exactly if one of the values read on the way is an object with a required
name that is no text, or has a key or a note without a text (`fails_ofValue`).
-/

namespace TypedClient

namespace Value

variable {ε : Type} {fault : ε} {values : List Value}

theorem fails_requireTexts :
    Fails (requireTexts fault values) ↔ ∃ v ∈ values, v.hasText = false := by
  unfold requireTexts
  split
  · rename_i h
    simpa using h
  · rename_i h
    simpa using h

theorem requireTexts_eq_ok :
    requireTexts fault values = .ok () ↔ ∀ v ∈ values, v.hasText = true := by
  unfold requireTexts
  split
  · rename_i h
    simpa using h
  · rename_i h
    simpa using h

end Value

/-- What is read as the schema of additional properties. -/
def Form.additionalParts : Value → List Value
  | .bool _ => []
  | raw => [raw]

/-- The parts of a form that are read as schemas. -/
def Form.parts : Form → List Value
  | .array items => [items]
  | .object properties _ additional => properties.map (·.2) ++ additionalParts additional
  | .combinator _ members => members
  | _ => []

/-- The values of a form whose texts are taken: the notes of a primitive schema, the keys of the
properties of an object and its description. -/
def Form.asked (entries : List (Value × Value)) : Form → List Value
  | .primitive _ => Schema.notesOf entries
  | .object properties _ _ => properties.map (·.1) ++ [Value.get entries "description"]
  | _ => []

/-- The values whose texts are taken when the value is read as a schema, those of its parts
apart. -/
def Schema.asked : Value → List Value
  | .map entries => (Form.of entries).asked entries
  | _ => []

theorem Form.sizeOf_lt_of_mem_parts {entries : List (Value × Value)} {part : Value}
    (h : part ∈ (Form.of entries).parts) : sizeOf part < sizeOf (Value.map entries) := by
  have within := within_of entries
  rw [Value.map.sizeOf_spec]
  cases hform : Form.of entries with
  | array items =>
    rw [hform] at h within
    rw [List.mem_singleton.1 h]
    exact within
  | object properties required additional =>
    rw [hform] at h within
    obtain ⟨hproperties, hadditional⟩ := within
    rcases List.mem_append.1 h with h | h
    · obtain ⟨e, he, rfl⟩ := List.mem_map.1 h
      have := List.sizeOf_lt_of_mem he
      obtain ⟨k, v⟩ := e
      simp only [Prod.mk.sizeOf_spec] at *
      omega
    · unfold additionalParts at h
      split at h
      · simp at h
      · rw [List.mem_singleton.1 h]
        exact hadditional
  | combinator kind members =>
    rw [hform] at h within
    have hmem : sizeOf part < sizeOf members := List.sizeOf_lt_of_mem h
    exact Nat.lt_trans hmem within
  | _ => simp [hform, Form.parts] at h

namespace Schema

/-- Reading the first value as a schema reads the second one as a schema too. -/
inductive Visits : Value → Value → Prop
  | self (raw : Value) : Visits raw raw
  | part {entries : List (Value × Value)} {part raw : Value} : part ∈ (Form.of entries).parts →
    Visits part raw → Visits (.map entries) raw

/-- The value is read as an object, and one of its required names is no text. -/
def Misnames (raw : Value) : Prop :=
  ∃ entries properties required additional, raw = .map entries ∧
    Form.of entries = .object properties required additional ∧ ∃ r ∈ required, ∀ s, r ≠ .text s

/-- A text of the value is taken when it is read as a schema, and there is none. -/
def Textless (raw : Value) : Prop :=
  ∃ v ∈ asked raw, v.hasText = false

theorem ofMembers_eq_mapM : ∀ raws : List Value, ofMembers raws = raws.mapM ofValue
  | [] => by rw [ofMembers, List.mapM_nil]; rfl
  | raw :: raws => by rw [ofMembers, List.mapM_cons, ofMembers_eq_mapM raws]

/-- A property under the text of its key. -/
def ofProperty (e : Value × Value) : Except SchemaFault (String × Schema) := do
  Value.requireTexts .noText [e.1]
  let s ← ofValue e.2
  return (e.1.display, s)

theorem ofProperties_eq_mapM : ∀ es : List (Value × Value), ofProperties es = es.mapM ofProperty
  | [] => by rw [ofProperties, List.mapM_nil]; rfl
  | (k, v) :: es => by
    rw [ofProperties, List.mapM_cons, ofProperties_eq_mapM es, ofProperty]
    cases Value.requireTexts SchemaFault.noText [k] <;> cases ofValue v <;> rfl

theorem fails_ofProperty (e : Value × Value) :
    Fails (ofProperty e) ↔ e.1.hasText = false ∨ Fails (ofValue e.2) := by
  rw [ofProperty, fails_bind_of fun _ _ => fails_bind_pure, Value.fails_requireTexts]
  simp

theorem ofProperty_eq_ok {e : Value × Value} {property : String × Schema} :
    ofProperty e = .ok property ↔
      e.1.hasText = true ∧ property.1 = e.1.display ∧ ofValue e.2 = .ok property.2 := by
  obtain ⟨name, s⟩ := property
  rw [ofProperty, Value.requireTexts]
  split
  · rename_i h
    have hkey : e.1.hasText = true := by simpa using h
    cases ofValue e.2 with
    | error fault => simp [bind, Except.bind]
    | ok t => simp [bind, Except.bind, pure, Except.pure, hkey, eq_comm]
  · rename_i h
    have hkey : e.1.hasText = false := by simpa using h
    simp [bind, Except.bind, hkey]

theorem fails_checkKeys {required : List Value} :
    Fails (checkKeys required) ↔ ∃ r ∈ required, r.isKey = false := by
  unfold checkKeys
  split
  · rename_i h
    simpa using h
  · rename_i h
    simpa using h

theorem fails_requiredNames {required : List Value} :
    Fails (requiredNames required) ↔ ∃ r ∈ required, ∀ s, r ≠ .text s := by
  have hlength : (textsOf required).length = required.length ↔
      ∀ r ∈ required, ∃ s, r = .text s := by
    rw [textsOf, List.filterMap_length_eq_length]
    refine forall₂_congr fun r _ => ?_
    cases r <;> simp
  unfold requiredNames
  split
  · rename_i h
    simp only [not_fails_ok, false_iff, not_exists, not_and, not_forall, not_not]
    exact hlength.1 h
  · rename_i h
    simpa [hlength] using h

theorem ne_text_of_isKey_eq_false {r : Value} (h : r.isKey = false) (s : String) : r ≠ .text s := by
  rintro rfl
  cases h

theorem fails_ofAdditional (raw : Value) :
    Fails (ofAdditional raw) ↔ ∃ part ∈ Form.additionalParts raw, Fails (ofValue part) := by
  cases raw <;> simp [ofAdditional, Form.additionalParts]

/-- Reading a map fails for the required names of an object, for a text that it asks for, or because
a part is refused. -/
theorem fails_ofValue_map (entries : List (Value × Value)) : Fails (ofValue (.map entries)) ↔
    (Misnames (.map entries) ∨ Textless (.map entries)) ∨
      ∃ part ∈ (Form.of entries).parts, Fails (ofValue part) := by
  rw [ofValue]
  split
  · rename_i h
    simp [Misnames, Textless, asked, Form.asked, h, Form.parts]
  · rename_i h
    rw [fails_bind_pure, Value.fails_requireTexts]
    simp [Misnames, Textless, asked, Form.asked, h, Form.parts]
  · rename_i h
    simp [Misnames, Textless, asked, Form.asked, h, Form.parts]
  · rename_i properties required additional h
    have hmisnames : Misnames (.map entries) ↔ ∃ r ∈ required, ∀ s, r ≠ .text s := by
      simp [Misnames, h]
    have hnames (f : List String → Schema) :
        Fails (requiredNames required >>= fun names => pure (f names)) ↔
          Misnames (.map entries) := by
      rw [fails_bind_pure, fails_requiredNames, hmisnames]
    -- lists and maps are refused before the other items, and they are no texts either
    have hkeys : Fails (checkKeys required) → Misnames (.map entries) := by
      rw [fails_checkKeys, hmisnames]
      rintro ⟨r, hr, hkey⟩
      exact ⟨r, hr, ne_text_of_isKey_eq_false hkey⟩
    rw [fails_bind_of fun _ _ => fails_bind_of fun _ _ => fails_bind_of fun _ _ =>
      fails_bind_of fun _ _ => hnames _]
    have hproperties : Fails (ofProperties properties) ↔
        (∃ e ∈ properties, e.1.hasText = false) ∨ ∃ e ∈ properties, Fails (ofValue e.2) := by
      simp only [ofProperties_eq_mapM, fails_mapM, fails_ofProperty, and_or_left, exists_or]
    have hparts : (∃ part ∈ (Form.of entries).parts, Fails (ofValue part)) ↔
        (∃ e ∈ properties, Fails (ofValue e.2)) ∨ Fails (ofAdditional additional) := by
      rw [fails_ofAdditional, h, Form.parts]
      simp only [List.mem_append, List.mem_map, or_and_right, exists_or, exists_exists_and_eq_and]
    have htextless : Textless (.map entries) ↔ (∃ e ∈ properties, e.1.hasText = false) ∨
        Fails (Value.requireTexts SchemaFault.noText [Value.get entries "description"]) := by
      rw [Value.fails_requireTexts]
      simp only [Textless, asked, h, Form.asked, List.mem_append, List.mem_map, or_and_right,
        exists_or, exists_exists_and_eq_and]
    rw [hproperties, hparts, htextless]
    constructor
    · rintro ((hkey | hproperty) | hlist | hadditional | hdescription | hname)
      · exact .inl (.inr (.inl hkey))
      · exact .inr (.inl hproperty)
      · exact .inl (.inl (hkeys hlist))
      · exact .inr (.inr hadditional)
      · exact .inl (.inr (.inr hdescription))
      · exact .inl (.inl hname)
    · rintro ((hname | hkey | hdescription) | hproperty | hadditional)
      · exact .inr (.inr (.inr (.inr hname)))
      · exact .inl (.inl hkey)
      · exact .inr (.inr (.inr (.inl hdescription)))
      · exact .inl (.inr hproperty)
      · exact .inr (.inr (.inl hadditional))
  · rename_i h
    simp [Misnames, Textless, asked, Form.asked, h, Form.parts, ofMembers_eq_mapM, fails_mapM]
  · rename_i h
    simp [Misnames, Textless, asked, Form.asked, h, Form.parts]

/-- Reading the value as a schema reads an object with a required name that is no text, or something
that it takes a text of and that has none. -/
def Refused (raw : Value) : Prop :=
  ∃ object, Visits raw object ∧ (Misnames object ∨ Textless object)

theorem fails_ofValue (raw : Value) : Fails (ofValue raw) ↔ Refused raw := by
  cases raw with
  | map entries =>
    rw [fails_ofValue_map]
    constructor
    · rintro (h | ⟨part, hpart, h⟩)
      · exact ⟨_, .self _, h⟩
      · obtain ⟨object, hvisits, h⟩ := (fails_ofValue part).1 h
        exact ⟨object, .part hpart hvisits, h⟩
    · rintro ⟨object, hvisits, h⟩
      cases hvisits with
      | self => exact .inl h
      | part hpart hvisits =>
        exact .inr ⟨_, hpart, (fails_ofValue _).2 ⟨object, hvisits, h⟩⟩
  | _ =>
    rw [ofValue]
    · simp only [not_fails_ok, false_iff]
      rintro ⟨object, hvisits, ⟨entries, _, _, _, rfl, -⟩ | ⟨v, hv, -⟩⟩ <;> cases hvisits
      cases hv
    · simp
termination_by sizeOf raw
decreasing_by all_goals exact Form.sizeOf_lt_of_mem_parts ‹_›

/-! ## A schema without a text -/

/-- The schema of a text, described by a number that is not written. -/
def describedByNumber : Value :=
  .map [(.text "type", .text "string"), (.text "description", .oversized)]

theorem refused_describedByNumber : Refused describedByNumber := by
  have hasked : asked describedByNumber = [.null, .oversized] := rfl
  refine ⟨_, .self _, .inr ⟨.oversized, ?_, Value.hasText_oversized⟩⟩
  rw [hasked]
  exact List.mem_cons_of_mem _ List.mem_cons_self

/-- The description is all that is at fault. -/
theorem not_misnames_of_visits_describedByNumber {object : Value}
    (h : Visits describedByNumber object) : ¬ Misnames object := by
  cases h with
  | self =>
    rintro ⟨_, _, _, _, hmap, hform, -⟩
    cases hmap
    cases hform
  | part hpart => cases hpart

end Schema

end TypedClient
