import Mathlib.Logic.Relation
import TypedClient.Proofs.Script.Block
import TypedClient.Proofs.TypeText.Tree

/-!
# Brackets of the text of a type

Names of schemas have no brackets and no quotes, and those of keys and choices stand inside
literals. So on the text of a type a scan never closes a bracket that is not open, and at the end
neither a bracket nor a literal is open (`balanced_render`). The operators that the scan sees at the
top level are then those between the parts of the type, which has several choices or members. A
reference that is expanded and a combinator of one member are printed as the schema that they stand
for, so it is this schema that has the parts (`Place.PrintsJoined`, `scan_typeText`).
-/

namespace TypedClient

namespace TypeExpr

open Text

/-! ## Depth -/

namespace Scan

variable {d : Int} {s : Scan} {c : Char} {a b cs : List Char}

/-- On its way through a text a scan is never below a depth. -/
def StaysAbove (d : Int) (s : Scan) (cs : List Char) : Prop :=
  ∀ before, before <+: cs → d ≤ (before.foldl step s).depth

theorem staysAbove_nil : StaysAbove d s [] ↔ d ≤ s.depth := by
  simp [StaysAbove]

theorem staysAbove_cons : StaysAbove d s (c :: cs) ↔ d ≤ s.depth ∧ StaysAbove d (s.step c) cs := by
  constructor
  · intro h
    exact ⟨h [] List.nil_prefix, fun before hbefore =>
      h (c :: before) (List.cons_prefix_cons.2 ⟨rfl, hbefore⟩)⟩
  · rintro ⟨hstart, hrest⟩ before hbefore
    rcases List.prefix_cons_iff.1 hbefore with rfl | ⟨rest, rfl, hprefix⟩
    · exact hstart
    · exact hrest rest hprefix

theorem staysAbove_append :
    StaysAbove d s (a ++ b) ↔ StaysAbove d s a ∧ StaysAbove d (a.foldl step s) b := by
  induction a generalizing s with
  | nil =>
    rw [List.nil_append, staysAbove_nil]
    exact ⟨fun h => ⟨h [] List.nil_prefix, h⟩, fun h => h.2⟩
  | cons c a ih =>
    rw [List.cons_append, staysAbove_cons, staysAbove_cons, ih, and_assoc, List.foldl_cons]

/-- Characters that are no quotes and no brackets. -/
def isLevel (c : Char) : Bool :=
  c != '"' && !isOpening c && !isClosing c

theorem foldl_step_of_isLevel (h : cs.all isLevel = true) (d : Int) :
    cs.foldl step ⟨d, .outside⟩ = ⟨d, .outside⟩ := by
  induction cs with
  | nil => rfl
  | cons c cs ih =>
    rw [List.all_cons, Bool.and_eq_true] at h
    obtain ⟨hc, hcs⟩ := h
    simp only [isLevel, bne_iff_ne, ne_eq, Bool.and_eq_true, Bool.not_eq_true'] at hc
    have hstep : step ⟨d, .outside⟩ c = ⟨d, .outside⟩ := by
      simp [step, hc]
    rw [List.foldl_cons, hstep, ih hcs]

/-- Without a quote a scan does not leave the literal that it is in. -/
theorem staysAbove_of_notMem (hs : s.quoting ≠ .outside) (h : '"' ∉ cs) :
    StaysAbove s.depth s cs := by
  induction cs generalizing s with
  | nil => exact staysAbove_nil.2 (Int.le_refl _)
  | cons c cs ih =>
    rw [List.mem_cons, not_or] at h
    have hnext : (s.step c).quoting ≠ .outside ∧ (s.step c).depth = s.depth := by
      obtain ⟨depth, _ | _ | _⟩ := s
      · exact absurd rfl hs
      · simp only [step, if_neg (Ne.symm h.1)]
        split <;> simp
      · simp [step]
    refine staysAbove_cons.2 ⟨Int.le_refl _, ?_⟩
    rw [← hnext.2]
    exact ih hnext.1 h.2

theorem quote_notMem_hex : ∀ width n, '"' ∉ hex width n
  | 0, _ => by simp [hex]
  | width + 1, n => by
    simp [hex, quote_notMem_hex width (n / 16), Ne.symm (Scans.hexDigit_ne n).1]

theorem staysAbove_doubleQuotedChar (d : Int) (c : Char) :
    StaysAbove d ⟨d, .inside⟩ (doubleQuotedChar c) := by
  unfold doubleQuotedChar
  split
  · simp [staysAbove_cons, staysAbove_nil, step]
  · rename_i hshort
    -- a quote has a short escape, so what is left has none
    have hne : '"' ≠ c := by
      rintro rfl
      simp [shortEscape?] at hshort
    split
    · exact staysAbove_of_notMem (s := ⟨d, .inside⟩) (by simp) (by simp [quote_notMem_hex])
    · exact staysAbove_of_notMem (s := ⟨d, .inside⟩) (by simp) (by simpa using hne)

theorem staysAbove_flatMap (d : Int) (cs : List Char) :
    StaysAbove d ⟨d, .inside⟩ (cs.flatMap doubleQuotedChar) := by
  induction cs with
  | nil => exact staysAbove_nil.2 (Int.le_refl d)
  | cons c cs ih =>
    rw [List.flatMap_cons, staysAbove_append, (Scans.inside_doubleQuotedChar c d).1]
    exact ⟨staysAbove_doubleQuotedChar d c, ih⟩

end Scan

open Scan

/-! ## Balanced texts -/

/-- From outside literals a scan comes back to the depth it has started at, and on its way it is
never below. -/
structure Balanced (cs : List Char) : Prop where
  back : ∀ d, cs.foldl step ⟨d, .outside⟩ = ⟨d, .outside⟩
  above : ∀ d, StaysAbove d ⟨d, .outside⟩ cs

namespace Balanced

variable {a b cs : List Char}

theorem of_isLevel (h : cs.all isLevel = true) : Balanced cs where
  back := foldl_step_of_isLevel h
  above d before hbefore := by
    have hlevel : before.all isLevel = true :=
      List.all_eq_true.2 fun c hc => List.all_eq_true.1 h c (hbefore.subset hc)
    exact Int.le_of_eq (congrArg Scan.depth (foldl_step_of_isLevel hlevel d)).symm

theorem append (ha : Balanced a) (hb : Balanced b) : Balanced (a ++ b) where
  back d := by rw [List.foldl_append, ha.back, hb.back]
  above d := by
    rw [staysAbove_append, ha.back]
    exact ⟨ha.above d, hb.above d⟩

theorem enclosed {o c : Char} (ho : isOpening o = true) (hc : isClosing c = true)
    (h : Balanced cs) : Balanced (o :: (cs ++ [c])) where
  back d := by
    rw [List.foldl_cons, step_opening ho, List.foldl_append, h.back, List.foldl_cons,
      step_closing hc, Int.add_sub_cancel, List.foldl_nil]
  above d := by
    -- between the brackets the scan is at least one deeper
    have hinside : StaysAbove d ⟨d + 1, .outside⟩ cs := fun before hbefore => by
      have := h.above (d + 1) before hbefore
      omega
    rw [staysAbove_cons, step_opening ho, staysAbove_append, h.back, staysAbove_cons,
      step_closing hc, Int.add_sub_cancel, staysAbove_nil]
    exact ⟨Int.le_refl d, hinside, Int.le_add_one (Int.le_refl d), Int.le_refl d⟩

theorem doubleQuoted (s : String) : Balanced (Text.doubleQuoted s).toList := by
  have hopen (d : Int) : step ⟨d, .outside⟩ '"' = ⟨d, .inside⟩ := rfl
  have hclose (d : Int) : step ⟨d, .inside⟩ '"' = ⟨d, .outside⟩ := rfl
  have hback (d : Int) := (Scans.inside_flatMap s.toList d).1
  rw [Text.doubleQuoted, String.toList_ofList]
  refine ⟨fun d => ?_, fun d => ?_⟩
  · rw [List.foldl_cons, hopen, List.foldl_append, hback, List.foldl_cons, hclose, List.foldl_nil]
  · rw [staysAbove_cons, hopen, staysAbove_append, hback, staysAbove_cons, hclose, staysAbove_nil]
    exact ⟨Int.le_refl d, staysAbove_flatMap d _, Int.le_refl d, Int.le_refl d⟩

theorem intercalate {sep : String} (hsep : Balanced sep.toList) {texts : List String}
    (h : ∀ t ∈ texts, Balanced t.toList) : Balanced (String.intercalate sep texts).toList := by
  refine DocComment.of_intercalate (P := fun s => Balanced s.toList) (of_isLevel (by simp)) ?_
    hsep h
  intro s t hs ht
  rw [String.toList_append]
  exact hs.append ht

end Balanced

/-! ## Texts of types -/

theorem all_isLevel_of_isPlain {cs : List Char} (h : cs.all Scans.isPlain = true) :
    cs.all isLevel = true := by
  refine List.all_eq_true.2 fun c hc => ?_
  have hplain := List.all_eq_true.1 h c hc
  simp only [Scans.isPlain, Bool.and_eq_true] at hplain
  simp [isLevel, hplain]

theorem balanced_propertyKey (name : String) : Balanced (Name.propertyKey name).toList := by
  unfold Name.propertyKey
  split
  · rename_i h
    exact .of_isLevel (all_isLevel_of_isPlain (all_isPlain_of_isIdentifier h))
  · exact .doubleQuoted name

theorem balanced_literal (choice : Option String) : Balanced (literal choice).toList := by
  cases choice with
  | none => exact .of_isLevel (by decide)
  | some s => exact .doubleQuoted s

theorem balanced_operator (how : Combination) : Balanced (operator how).toList := by
  cases how <;> exact .of_isLevel (by decide)

theorem balanced_indent (level : Int) : Balanced (indent level).toList :=
  .of_isLevel (all_isLevel_of_isPlain (all_isPlain_indent level))

theorem balanced_propertyLine (level : Int) (key : PropertyKey) {type : String}
    (h : Balanced type.toList) : Balanced (propertyLine level key type).toList := by
  have hmark : Balanced (if key.isOptional then "?" else "").toList := by
    split <;> exact .of_isLevel (by decide)
  have hcolon : Balanced ": ".toList := .of_isLevel (by decide)
  have hend : Balanced ";".toList := .of_isLevel (by decide)
  have hline := (((((balanced_indent (level + 1)).append (balanced_propertyKey key.name)).append
    hmark).append hcolon).append h).append hend
  simpa [propertyLine] using hline

theorem balanced_grouped {text : String} (h : Balanced text.toList) :
    Balanced (grouped text).toList := by
  unfold grouped
  split
  · simpa using h.enclosed (o := '(') (c := ')') rfl rfl
  · exact h

/-- The text of a type whose names have neither brackets nor quotes is balanced, whatever its keys
and choices are. -/
theorem balanced_render {name key : String → Prop}
    (hname : ∀ n, name n → n.toList.all isLevel = true) {t : TypeExpr}
    (h : WellFormed name key t) : ∀ level, Balanced (render level t).toList := by
  induction h with
  | unknown => exact fun _ => @Balanced.of_isLevel "unknown".toList (by decide)
  | string => exact fun _ => @Balanced.of_isLevel "string".toList (by decide)
  | number => exact fun _ => @Balanced.of_isLevel "number".toList (by decide)
  | boolean => exact fun _ => @Balanced.of_isLevel "boolean".toList (by decide)
  | openRecord =>
    intro level
    have hword : Balanced "Record".toList := .of_isLevel (by decide)
    have harguments : Balanced "string, unknown".toList := .of_isLevel (by decide)
    simpa [render] using hword.append (harguments.enclosed (o := '<') (c := '>') rfl rfl)
  | @literals choices _ =>
    intro level
    have htexts : ∀ t ∈ choices.map literal, Balanced t.toList :=
      List.forall_mem_map.2 fun choice _ => balanced_literal choice
    exact .intercalate (balanced_operator .union) htexts
  | @named n hn => exact fun _ => .of_isLevel (hname n hn)
  | @array element _ ih =>
    intro level
    have hword : Balanced "Array".toList := .of_isLevel (by decide)
    simpa [render] using hword.append ((ih level).enclosed (o := '<') (c := '>') rfl rfl)
  | @object properties _ _ ih =>
    intro level
    have hfeed : Balanced "\n".toList := .of_isLevel (by decide)
    have hlines : ∀ t ∈ renderProperties level properties, Balanced t.toList := by
      rw [renderProperties_eq_map]
      exact List.forall_mem_map.2 fun p hp =>
        balanced_propertyLine level p.1 (ih p hp (level + 1))
    have hinside := ((hfeed.append (.intercalate hfeed hlines)).append hfeed).append
      (balanced_indent level)
    simpa [render] using hinside.enclosed (o := '\x7b') (c := '\x7d') rfl rfl
  | @combination how members _ _ ih =>
    intro level
    have htexts : ∀ t ∈ renderMembers level members, Balanced t.toList := by
      rw [renderMembers_eq_map]
      exact List.forall_mem_map.2 fun m hm => balanced_grouped (ih m hm level)
    exact .intercalate (balanced_operator how) htexts

end TypeExpr

open TypeExpr Relation

/-! ## Parts of a printed schema -/

/-- A schema that is printed as parts with an operator between them: it has several members, or it
is a text with several choices. -/
def Schema.hasParts : Schema → Bool
  | .primitive p => p.kind = .string && 2 ≤ (p.choices.getD []).length
  | .combinator _ members => 2 ≤ members.length
  | _ => false

namespace Place

variable {reg : Registry} {p q : Place}

/-- At the first place the schema at the second one is printed: the target of a reference that is
expanded, or the one member of a combinator. -/
inductive ShownAs (reg : Registry) : Place → Place → Prop
  | target {visited : List String} {ref : String} {s : Schema} :
    target? reg visited ref = some s →
    ShownAs reg ⟨visited, .reference ref⟩ ⟨Reference.name ref :: visited, s⟩
  | member {visited : List String} {kind : CombinatorKind} {m : Schema} :
    ShownAs reg ⟨visited, .combinator kind [m]⟩ ⟨visited, m⟩

/-- The schema that is printed at the place in the end has parts. -/
def PrintsJoined (reg : Registry) (p : Place) : Prop :=
  ∃ q, ReflTransGen (ShownAs reg) p q ∧ q.schema.hasParts = true

theorem ShownAs.type_eq (h : ShownAs reg p q) : p.type reg = q.type reg := by
  cases h with
  | target htarget => rw [type, ofSchema_reference, htarget]; rfl
  | member => rw [type, ofSchema, ofMembers_eq_map]; rfl

theorem ShownAs.unique {r : Place} (h : ShownAs reg p q) (hr : ShownAs reg p r) : q = r := by
  cases h with
  | target htarget =>
    cases hr with
    | target htarget' => cases htarget.symm.trans htarget'; rfl
  | member =>
    cases hr
    rfl

theorem ShownAs.hasParts_eq (h : ShownAs reg p q) : p.schema.hasParts = false := by
  cases h <;> rfl

theorem ShownAs.printsJoined_iff (h : ShownAs reg p q) :
    PrintsJoined reg p ↔ PrintsJoined reg q := by
  constructor
  · rintro ⟨r, hpath, hparts⟩
    rcases hpath.cases_head with rfl | ⟨q', hq', hrest⟩
    · exact absurd hparts (by simp [h.hasParts_eq])
    · exact ⟨r, h.unique hq' ▸ hrest, hparts⟩
  · rintro ⟨r, hpath, hparts⟩
    exact ⟨r, .head h hpath, hparts⟩

theorem printsJoined_of_end (h : ∀ q, ¬ ShownAs reg p q) :
    PrintsJoined reg p ↔ p.schema.hasParts = true := by
  constructor
  · rintro ⟨r, hpath, hparts⟩
    rcases hpath.cases_head with rfl | ⟨q, hq, -⟩
    · exact hparts
    · exact absurd hq (h q)
  · exact fun hparts => ⟨p, .refl, hparts⟩

theorem isCompound_ofPrimitive (p : Primitive) :
    (ofPrimitive p).isCompound = (Schema.primitive p).hasParts := by
  obtain ⟨_ | _ | _ | _, choices, default, format, description⟩ := p
  · rcases choices with _ | _ | ⟨v, vs⟩ <;> simp [ofPrimitive, isCompound, Schema.hasParts]
  all_goals rfl

/-- Where nothing stands for the schema, it has parts exactly if its type has. -/
theorem isCompound_type_of_end (h : ∀ q, ¬ ShownAs reg p q) :
    (p.type reg).isCompound = p.schema.hasParts := by
  obtain ⟨visited, s⟩ := p
  rw [type]
  cases s with
  | primitive q => rw [ofSchema, isCompound_ofPrimitive]
  | array element => rw [ofSchema]; rfl
  | object properties required additional description =>
    rw [ofSchema]
    split <;> rfl
  | reference ref =>
    rcases htarget : target? reg visited ref with _ | s
    · rw [target?_of_type_reference htarget]; rfl
    · exact absurd (.target htarget) (h _)
  | combinator kind members =>
    rw [ofSchema, ofMembers_eq_map]
    rcases members with _ | ⟨a, _ | ⟨b, rest⟩⟩
    · rfl
    · exact absurd .member (h _)
    · simp [combine, isCompound, Schema.hasParts]
  | unknown raw => rw [ofSchema]; rfl

theorem mem_calls_of_shownAs (h : ShownAs reg p q) : q ∈ p.calls reg := by
  cases h with
  | target htarget => exact mem_calls_of_target? htarget
  | member => exact List.mem_singleton_self _

theorem isCompound_type_iff (p : Place) : (p.type reg).isCompound = true ↔ PrintsJoined reg p := by
  induction p using (wellFounded_calls reg).induction with
  | _ p ih =>
    by_cases h : ∃ q, ShownAs reg p q
    · obtain ⟨q, hq⟩ := h
      rw [hq.type_eq, hq.printsJoined_iff, ih q (mem_calls_of_shownAs hq)]
    · rw [not_exists] at h
      rw [isCompound_type_of_end h, printsJoined_of_end h]

instance (p : Place) : Decidable (PrintsJoined reg p) :=
  decidable_of_iff _ (isCompound_type_iff p)

end Place

/-- A name of letters and digits of any script, points, hyphens and underscores. -/
def IsSchemaWord (name : String) : Prop :=
  ∀ c ∈ name.toList, Lexer.isSchemaNameChar c = true

variable {reg : Registry}

/-- The scan finds an operator at the top level of a printed schema exactly if what is printed has
parts. -/
theorem Place.hasTopLevelOperator_iff (hreg : reg.Names IsSchemaWord fun _ => True) (p : Place)
    (hp : p.schema.Names IsSchemaWord fun _ => True) (level : Int) :
    hasTopLevelOperator (p.schema.typeText reg p.visited level) = true ↔ PrintsJoined reg p := by
  have hwritten := wellFormed_type hreg p hp
  have hscans := scans_render (fun _ => all_isPlain_of_isSchemaNameChar) hwritten level
  rw [← isCompound_type_iff p, ← hasTopLevelOperator_of_scans hscans]
  rfl

/-- On its way through the text of the type of a schema the scan is never below depth zero, and at
the end it is at depth zero and outside literals. It finds an operator exactly if the schema that is
printed, references expanded and combinators of one member followed, has several members or several
choices; so it is these members of a combination that stand in parentheses. -/
theorem scan_typeText (hreg : reg.Names IsSchemaWord fun _ => True) {s : Schema}
    (hs : s.Names IsSchemaWord fun _ => True) (visited : List String) (level : Int) :
    (∀ before, before <+: (s.typeText reg visited level).toList →
      0 ≤ (before.foldl Scan.step {}).depth) ∧
    (s.typeText reg visited level).toList.foldl Scan.step {} = ⟨0, .outside⟩ ∧
    (hasTopLevelOperator (s.typeText reg visited level) = true ↔
      Place.PrintsJoined reg ⟨visited, s⟩) ∧
    ∀ kind members, s = .combinator kind members → 2 ≤ members.length →
      s.typeText reg visited level = String.intercalate (operator (combinationOf kind))
        (members.map fun m =>
          if Place.PrintsJoined reg ⟨visited, m⟩ then "(" ++ m.typeText reg visited level ++ ")"
          else m.typeText reg visited level) := by
  have hlevel (n : String) (hn : IsSchemaWord n) : n.toList.all Scan.isLevel = true :=
    all_isLevel_of_isPlain (all_isPlain_of_isSchemaNameChar hn)
  have hbalanced := balanced_render hlevel (Place.wellFormed_type hreg ⟨visited, s⟩ hs) level
  have hoperator := Place.hasTopLevelOperator_iff hreg ⟨visited, s⟩ hs level
  refine ⟨hbalanced.above 0, hbalanced.back 0, hoperator, ?_⟩
  rintro kind members rfl hlen
  rw [Schema.typeText, ofSchema, ofMembers_eq_map, combine_of_two_le (by simpa using hlen), render,
    renderMembers_eq_map, List.map_map]
  refine congrArg _ (List.map_congr_left fun m hm => ?_)
  have hmember := Place.hasTopLevelOperator_iff hreg ⟨visited, m⟩ (hs.child (.member hm)) level
  exact if_congr hmember rfl rfl

/-- A text that looks like an operator behind a bracket, or nothing. -/
def mood : Schema :=
  .combinator .oneOf [.primitive ⟨.string, some [.text "<a | b", .null], .null, none, none⟩]

def moodRegistry : Registry where
  entries := [("Mood", mood)]
  distinct := by decide

/-- A property whose name has a quote and brackets. -/
def quotedKey : Schema :=
  .object [("a\">\x7b", .primitive ⟨.number, none, .null, none, none⟩)] [] (.allowed true) none

def moody : Schema :=
  .combinator .allOf [.reference "common.yaml#/definitions/Mood", quotedKey, .reference "v-1.0"]

theorem names_moody : moodRegistry.Names IsSchemaWord (fun _ => True) ∧
    moody.Names IsSchemaWord (fun _ => True) := by
  have hprimitive (p : Primitive) : (Schema.primitive p).Names IsSchemaWord (fun _ => True) :=
    .of_child (by simp) (by simp) fun t ht => by cases ht
  constructor
  · simp only [Registry.Names, moodRegistry, List.mem_singleton, forall_eq]
    refine .of_child (by simp [mood]) (by simp) fun t ht => ?_
    cases ht with
    | member hm =>
      rw [List.mem_singleton.1 hm]
      exact hprimitive _
  · refine .of_child (by simp [moody]) (by simp) fun t ht => ?_
    rcases ht with _ | _ | hm
    simp only [List.mem_cons, List.not_mem_nil, or_false] at hm
    rcases hm with rfl | rfl | rfl
    · exact .of_reference (List.all_eq_true.1 (by decide))
    · refine .of_child (by simp [quotedKey]) (by simp) fun t ht => ?_
      cases ht with
      | property hp =>
        rw [List.mem_singleton.1 hp]
        exact hprimitive _
    · exact .of_reference (List.all_eq_true.1 (by decide))

/-- Of three members the first one has several choices, behind a reference and a combinator of one
member, and it alone stands in parentheses. -/
theorem scan_typeText_moody :
    Place.PrintsJoined moodRegistry ⟨[], .reference "common.yaml#/definitions/Mood"⟩ ∧
    moody.typeText moodRegistry [] 0 =
      "(\"<a | b\" | null) & \x7b\n  \"a\\\">\x7b\"?: number;\n\x7d & v-1.0" := by
  have hmood : Place.target? moodRegistry [] "common.yaml#/definitions/Mood" = some mood := rfl
  have hgone : Place.target? moodRegistry [] "v-1.0" = none := rfl
  have hjoined : Place.PrintsJoined moodRegistry ⟨[], .reference "common.yaml#/definitions/Mood"⟩ :=
    ⟨_, .head (.target hmood) (.single .member), rfl⟩
  have hkey : ¬ Place.PrintsJoined moodRegistry ⟨[], quotedKey⟩ := by
    rw [Place.printsJoined_of_end (fun _ h => by cases h)]
    decide
  have hname : ¬ Place.PrintsJoined moodRegistry ⟨[], .reference "v-1.0"⟩ := by
    rw [Place.printsJoined_of_end]
    · decide
    · intro q h
      cases h with
      | target h => cases hgone.symm.trans h
  refine ⟨hjoined, ?_⟩
  rw [(scan_typeText names_moody.1 names_moody.2 [] 0).2.2.2 _ _ rfl (by decide)]
  simp only [List.map_cons, List.map_nil, if_pos hjoined, if_neg hkey, if_neg hname]
  simp [Schema.typeText, ofSchema_reference, hmood, hgone, mood, quotedKey, ofSchema,
    ofMembers_eq_map, ofProperties_eq_map, combine, ofPrimitive]
  decide +kernel

end TypedClient
