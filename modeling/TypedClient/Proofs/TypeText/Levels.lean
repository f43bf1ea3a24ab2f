import TypedClient.Proofs.Methods.Response

/-!
# Types at a deeper level

At a deeper level the text of a type has the same lines, and all but the first begin further to the
right: the text is the one at level zero with the indentation of the level behind every line feed
(`typeText_deepen`). A line feed stands in no name, key or literal, so all line feeds are those of
the layout. No scan is escaping behind a line feed, hence the blanks behind it change nothing for
the scan, and the same members of a combination get parentheses.
-/

namespace TypedClient

namespace Text

/-! ## Deeper texts -/

/-- The characters with padding behind every line feed. -/
def padFeeds (pad cs : List Char) : List Char :=
  cs.flatMap fun c => if c = '\n' then '\n' :: pad else [c]

/-- The text with the indentation of a level behind every line feed. -/
def deepen (level : Int) (text : String) : String :=
  String.ofList (padFeeds (indent level).toList text.toList)

variable {level depth : Int} {s : String} {c : Char} {pad : List Char}

theorem toList_deepen (level : Int) (s : String) :
    (deepen level s).toList = padFeeds (indent level).toList s.toList := by
  rw [deepen, String.toList_ofList]

theorem padFeeds_feed (pad cs : List Char) :
    padFeeds pad ('\n' :: cs) = '\n' :: (pad ++ padFeeds pad cs) := rfl

theorem padFeeds_cons (hc : c ≠ '\n') (pad cs : List Char) :
    padFeeds pad (c :: cs) = c :: padFeeds pad cs := by
  rw [padFeeds, List.flatMap_cons, if_neg hc]
  rfl

theorem padFeeds_of_notMem {cs : List Char} (h : '\n' ∉ cs) : padFeeds pad cs = cs := by
  induction cs with
  | nil => rfl
  | cons c cs ih =>
    rw [List.mem_cons, not_or] at h
    rw [padFeeds_cons (Ne.symm h.1), ih h.2]

theorem padded_padFeeds (pad cs : List Char) : Padded pad cs (padFeeds pad cs) := by
  induction cs with
  | nil => exact .nil
  | cons c cs ih =>
    by_cases hc : c = '\n'
    · rw [hc, padFeeds_feed]
      exact .feed ih
    · rw [padFeeds_cons hc]
      exact .char c ih

theorem deepen_append (level : Int) (s t : String) :
    deepen level (s ++ t) = deepen level s ++ deepen level t := by
  apply String.toList_injective
  simp only [toList_deepen, padFeeds, String.toList_append, List.flatMap_append]

theorem deepen_of_notMem (h : '\n' ∉ s.toList) : deepen level s = s := by
  rw [deepen, padFeeds_of_notMem h, String.ofList_toList]

theorem deepen_feed (level : Int) : deepen level "\n" = "\n" ++ indent level := by
  apply String.toList_injective
  simp [toList_deepen, padFeeds]

theorem deepen_intercalate (level : Int) (sep : String) : ∀ texts : List String,
    deepen level (String.intercalate sep texts) =
      String.intercalate (deepen level sep) (texts.map (deepen level))
  | [] => by simp [deepen, padFeeds]
  | [t] => by simp
  | t :: u :: rest => by
    have ih := deepen_intercalate level sep (u :: rest)
    rw [List.map_cons] at ih
    rw [String.intercalate_cons_cons, List.map_cons, List.map_cons, String.intercalate_cons_cons,
      deepen_append, deepen_append, ih]

end Text

namespace TypeExpr

open Text

/-! ## Scans -/

namespace Scan

theorem quoting_step_feed (s : Scan) : (s.step '\n').quoting ≠ .escaped := by
  obtain ⟨depth, _ | _ | _⟩ := s <;> simp [step, isOpening, isClosing]

/-- Where nothing is escaped, a scan passes over blanks. -/
theorem foldl_step_blanks {s : Scan} (h : s.quoting ≠ .escaped) (n : Nat) :
    (List.replicate n ' ').foldl step s = s := by
  have hstep : s.step ' ' = s := by
    obtain ⟨depth, _ | _ | _⟩ := s
    · rfl
    · rfl
    · exact absurd rfl h
  induction n with
  | zero => rfl
  | succ n ih => rw [List.replicate_succ, List.foldl_cons, hstep, ih]

theorem findsOperator_blanks (s : Scan) (n : Nat) :
    s.findsOperator (List.replicate n ' ') = false := by
  induction n generalizing s with
  | zero => rfl
  | succ n ih => simp [List.replicate_succ, findsOperator, meetsOperator, ih]

theorem findsOperator_padFeeds (n : Nat) (cs : List Char) (s : Scan) :
    s.findsOperator (padFeeds (List.replicate n ' ') cs) = s.findsOperator cs := by
  induction cs generalizing s with
  | nil => rfl
  | cons c cs ih =>
    by_cases hc : c = '\n'
    · rw [hc, padFeeds_feed, findsOperator, findsOperator_append, findsOperator_blanks,
        foldl_step_blanks (quoting_step_feed s), ih, Bool.false_or, findsOperator]
    · rw [padFeeds_cons hc, findsOperator, findsOperator, ih]

end Scan

theorem hasTopLevelOperator_deepen (level : Int) (text : String) :
    hasTopLevelOperator (deepen level text) = hasTopLevelOperator text := by
  rw [hasTopLevelOperator, toList_deepen, indent, String.toList_ofList,
    Scan.findsOperator_padFeeds, hasTopLevelOperator]

theorem deepen_grouped (level : Int) (text : String) :
    deepen level (grouped text) = grouped (deepen level text) := by
  unfold grouped
  rw [hasTopLevelOperator_deepen]
  split
  · rw [deepen_append, deepen_append, deepen_of_notMem (s := "(") (by simp),
      deepen_of_notMem (s := ")") (by simp)]
  · rfl

/-! ## Texts of types -/

theorem feed_notMem_doubleQuoted (s : String) : '\n' ∉ (doubleQuoted s).toList :=
  fun h => absurd (le_toNat_of_mem_doubleQuoted h) (by decide)

theorem feed_notMem_propertyKey {name : String} (h : EndsOnLine name) :
    '\n' ∉ (Name.propertyKey name).toList := by
  unfold Name.propertyKey
  split
  · rename_i hname
    intro hfeed
    rcases mem_of_isIdentifier hname hfeed with hpart | ⟨-, hlast⟩
    · exact absurd hpart (by decide)
    · exact h hlast
  · exact feed_notMem_doubleQuoted name

theorem feed_notMem_literal (choice : Option String) : '\n' ∉ (literal choice).toList := by
  cases choice with
  | none => exact (by decide : '\n' ∉ "null".toList)
  | some s => exact feed_notMem_doubleQuoted s

theorem feed_notMem_operator (how : Combination) : '\n' ∉ (operator how).toList := by
  cases how <;> decide

/-- At a deeper level the text of the type is the same but for the indentation of its lines. -/
def Deepens (t : TypeExpr) : Prop :=
  ∀ level depth : Int, 0 ≤ level → 0 ≤ depth →
    render (level + depth) t = deepen depth (render level t)

/-- What is written on one line is the same at all levels. -/
theorem deepens_of_line {t : TypeExpr} {text : String} (htext : ∀ level, render level t = text)
    (h : '\n' ∉ text.toList) : Deepens t := by
  intro level depth _ _
  rw [htext, htext, deepen_of_notMem h]

theorem deepens_literals (choices : List (Option String)) : Deepens (.literals choices) := by
  intro level depth _ _
  rw [render, render, deepen_intercalate, deepen_of_notMem (s := " | ") (by simp), List.map_map]
  refine congrArg _ (List.map_congr_left fun choice _ => ?_)
  exact (deepen_of_notMem (feed_notMem_literal choice)).symm

theorem Deepens.array {element : TypeExpr} (h : Deepens element) : Deepens (.array element) := by
  intro level depth hlevel hdepth
  rw [render, render, h level depth hlevel hdepth, deepen_append, deepen_append,
    deepen_of_notMem (s := "Array<") (by simp), deepen_of_notMem (s := ">") (by simp)]

theorem propertyLine_deepen {level depth : Int} (hlevel : 0 ≤ level) (hdepth : 0 ≤ depth)
    {key : PropertyKey} (hkey : EndsOnLine key.name) (type : String) :
    propertyLine (level + depth) key (deepen depth type) =
      indent depth ++ deepen depth (propertyLine level key type) := by
  have hindent : indent (level + depth + 1) = indent depth ++ indent (level + 1) := by
    rw [show level + depth + 1 = level + 1 + depth by omega]
    exact indent_add hdepth (by omega)
  have hmark : '\n' ∉ (if key.isOptional then "?" else "").toList := by
    split <;> decide
  simp only [propertyLine, deepen_append, deepen_of_notMem (newline_notMem_indent _),
    deepen_of_notMem (feed_notMem_propertyKey hkey), deepen_of_notMem hmark,
    deepen_of_notMem (s := ": ") (by simp), deepen_of_notMem (s := ";") (by simp), hindent,
    String.append_assoc]

/-- Lines that are put together with a text behind each break have it in front of each line. -/
theorem append_intercalate_append (sep text : String) : ∀ {lines : List String}, lines ≠ [] →
    text ++ String.intercalate (sep ++ text) lines =
      String.intercalate sep (lines.map (text ++ ·))
  | [line], _ => by simp
  | line :: next :: rest, _ => by
    have ih := append_intercalate_append sep text (List.cons_ne_nil next rest)
    rw [List.map_cons] at ih
    rw [String.intercalate_cons_cons, List.map_cons, List.map_cons, String.intercalate_cons_cons,
      ← ih]
    simp only [String.append_assoc]

theorem Deepens.object {properties : List (PropertyKey × TypeExpr)} (hne : properties ≠ [])
    (hkey : ∀ p ∈ properties, EndsOnLine p.1.name) (h : ∀ p ∈ properties, Deepens p.2) :
    Deepens (.object properties) := by
  intro level depth hlevel hdepth
  let lines := renderProperties level properties
  have hlines : renderProperties (level + depth) properties =
      (lines.map (deepen depth)).map (indent depth ++ ·) := by
    simp only [lines, renderProperties_eq_map, List.map_map]
    refine List.map_congr_left fun p hp => ?_
    have htype := h p hp (level + 1) depth (by omega) hdepth
    rw [Function.comp_apply, Function.comp_apply, ← propertyLine_deepen hlevel hdepth (hkey p hp),
      ← htype, show level + depth + 1 = level + 1 + depth by omega]
  have hlines_ne : lines.map (deepen depth) ≠ [] := by
    simpa [lines, renderProperties_eq_map] using hne
  have hopen : deepen depth "\x7b\n" = "\x7b\n" ++ indent depth := by
    rw [show "\x7b\n" = "\x7b" ++ "\n" from rfl, deepen_append, deepen_feed,
      deepen_of_notMem (s := "\x7b") (by simp), String.append_assoc]
  calc render (level + depth) (.object properties)
    _ = "\x7b\n" ++ String.intercalate "\n" ((lines.map (deepen depth)).map (indent depth ++ ·)) ++
        "\n" ++ (indent depth ++ indent level) ++ "\x7d" := by
      rw [render, hlines, indent_add hdepth hlevel]
    _ = "\x7b\n" ++ (indent depth ++
        String.intercalate ("\n" ++ indent depth) (lines.map (deepen depth))) ++
        "\n" ++ (indent depth ++ indent level) ++ "\x7d" := by
      rw [append_intercalate_append "\n" (indent depth) hlines_ne]
    _ = deepen depth (render level (.object properties)) := by
      rw [render]
      simp only [deepen_append, deepen_intercalate, deepen_feed, hopen, lines,
        deepen_of_notMem (newline_notMem_indent level), deepen_of_notMem (s := "\x7d") (by simp),
        String.append_assoc]

theorem Deepens.combination {how : Combination} {members : List TypeExpr}
    (h : ∀ m ∈ members, Deepens m) : Deepens (.combination how members) := by
  intro level depth hlevel hdepth
  rw [render, render, deepen_intercalate, deepen_of_notMem (feed_notMem_operator how),
    renderMembers_eq_map, renderMembers_eq_map, List.map_map]
  refine congrArg _ (List.map_congr_left fun m hm => ?_)
  rw [Function.comp_apply, deepen_grouped, h m hm level depth hlevel hdepth]

theorem deepens_combine (how : Combination) {members : List TypeExpr}
    (h : ∀ m ∈ members, Deepens m) : Deepens (combine how members) := by
  rcases members with _ | ⟨a, _ | ⟨b, rest⟩⟩
  · exact deepens_of_line (fun _ => rfl) (by simp)
  · exact h a (by simp)
  · exact .combination h

theorem deepens_ofPrimitive (p : Primitive) : Deepens (ofPrimitive p) := by
  unfold ofPrimitive
  split
  · split
    · exact deepens_literals _
    · exact deepens_of_line (fun _ => rfl) (by simp)
  all_goals exact deepens_of_line (fun _ => rfl) (by simp)

end TypeExpr

open TypeExpr Text

/-- A name without a line feed. -/
def IsOneLine (name : String) : Prop :=
  '\n' ∉ name.toList

variable {reg : Registry}

/-- The induction is on the walk, since only types of schemas have no empty object. -/
theorem Place.deepens_type (hreg : reg.Names IsOneLine EndsOnLine) (p : Place)
    (hp : p.schema.Names IsOneLine EndsOnLine) : Deepens (p.type reg) := by
  induction p using (wellFounded_calls reg).induction with
  | _ p ih =>
    obtain ⟨visited, s⟩ := p
    have hchild (t : Schema) (ht : s.Child t) : Deepens (ofSchema reg visited t) :=
      ih ⟨visited, t⟩ (mem_calls_of_child ht) (hp.child ht)
    rw [Place.type]
    cases s with
    | primitive p =>
      rw [ofSchema]
      exact deepens_ofPrimitive p
    | array element =>
      rw [ofSchema]
      exact (hchild element .element).array
    | object properties required additional description =>
      rw [ofSchema, ofProperties_eq_map]
      split
      · exact deepens_of_line (fun _ => rfl) (by simp)
      · rename_i hne
        refine .object (by simpa using hne) ?_ ?_
        · exact List.forall_mem_map.2 fun q hq => hp.property _ _ _ _ (.self _) q hq
        · exact List.forall_mem_map.2 fun q hq => hchild q.2 (.property hq)
    | reference ref =>
      rw [ofSchema_reference]
      split
      · rename_i target htarget
        have hfound := (target?_eq_some.1 htarget).2
        exact ih _ (mem_calls_of_target? htarget) (hreg _ (Assoc.mem_of_find? hfound))
      · exact deepens_of_line (fun _ => rfl) (hp.reference ref (.self _))
    | combinator kind members =>
      rw [ofSchema, ofMembers_eq_map]
      exact deepens_combine _ (List.forall_mem_map.2 fun m hm => hchild m (.member hm))
    | unknown raw =>
      rw [ofSchema]
      exact deepens_of_line (fun _ => rfl) (by simp)

/-- At any level that is not negative the text of the type of a schema is the one at level zero with
the indentation of the level behind every line feed. Both show the same operators, so parentheses
are put in the same places, and have the same tokens, literals included. -/
theorem typeText_deepen (hreg : reg.Names IsOneLine EndsOnLine) {s : Schema}
    (hs : s.Names IsOneLine EndsOnLine) (visited : List String) {level : Int} (hlevel : 0 ≤ level) :
    s.typeText reg visited level = deepen level (s.typeText reg visited 0) ∧
    hasTopLevelOperator (s.typeText reg visited level) =
      hasTopLevelOperator (s.typeText reg visited 0) ∧
    Lexer.tokens? (s.typeText reg visited level) = Lexer.tokens? (s.typeText reg visited 0) := by
  have htext : s.typeText reg visited level = deepen level (s.typeText reg visited 0) := by
    have hdeepens := Place.deepens_type hreg ⟨visited, s⟩ hs 0 level (Int.le_refl 0) hlevel
    rwa [Int.zero_add] at hdeepens
  refine ⟨htext, ?_, ?_⟩
  · rw [htext, hasTopLevelOperator_deepen]
  · have hpadded : Padded (indent level).toList (s.typeText reg visited 0).toList
        (s.typeText reg visited level).toList := by
      rw [htext, toList_deepen]
      exact padded_padFeeds _ _
    exact hpadded.tokens?_eq

/-- A pet, which refers to pets under a key that is no identifier. -/
def petSchema : Schema :=
  .object [("name", .primitive ⟨.string, none, .null, none, none⟩),
    ("next-pet", .reference "#/components/schemas/Pet")] ["name"] (.allowed true) none

def kennelRegistry : Registry where
  entries := [("Pet", petSchema)]
  distinct := by decide

/-- Pets, or texts with a line break and an operator among them. -/
def kennel : Schema :=
  .array (.combinator .oneOf [.reference "#/components/schemas/Pet",
    .primitive ⟨.string, some [.text "a\nb | c", .null], .null, none, none⟩])

theorem ofSchema_kennel : ofSchema kennelRegistry [] kennel =
    .array (.combination .union [
      .object [(⟨"name", false⟩, .string), (⟨"next-pet", true⟩, .named "Pet")],
      .literals [some "a\nb | c", none]]) := by
  have hname : Reference.name "#/components/schemas/Pet" = "Pet" := by decide
  have hopen : Place.target? kennelRegistry [] "#/components/schemas/Pet" = some petSchema := rfl
  have hcut : Place.target? kennelRegistry ["Pet"] "#/components/schemas/Pet" = none := rfl
  rw [kennel, ofSchema, ofSchema, ofMembers_eq_map, List.map_cons, ofSchema_reference, hopen]
  simp [petSchema, ofSchema, ofProperties_eq_map, ofSchema_reference, hcut, hname, ofPrimitive,
    keyOf, combine, combinationOf, Value.optionalText, Value.display]

theorem names_kennel : kennelRegistry.Names IsOneLine EndsOnLine ∧
    kennel.Names IsOneLine EndsOnLine := by
  have href : (Schema.reference "#/components/schemas/Pet").Names IsOneLine EndsOnLine :=
    .of_reference (by decide : '\n' ∉ (Reference.name "#/components/schemas/Pet").toList)
  have hprimitive (p : Primitive) : (Schema.primitive p).Names IsOneLine EndsOnLine :=
    .of_child (by simp) (by simp) fun t ht => by cases ht
  constructor
  · simp only [Registry.Names, kennelRegistry, List.mem_singleton, forall_eq]
    refine .of_child (by simp [petSchema]) (fun _ _ _ _ h => ?_) fun t ht => ?_
    · cases h
      simp [EndsOnLine]
    · rcases ht with _ | hp | _
      rcases List.mem_cons.1 hp with rfl | hp
      · exact hprimitive _
      · rw [List.mem_singleton.1 hp]
        exact href
  · refine .of_child (by simp [kennel]) (by simp [kennel]) fun t ht => ?_
    cases ht
    refine .of_child (by simp) (by simp) fun t ht => ?_
    rcases ht with _ | _ | hm
    rcases List.mem_cons.1 hm with rfl | hm
    · exact href
    · rw [List.mem_singleton.1 hm]
      exact hprimitive _

/-- Two levels deeper the break inside a literal is as it was, and those of the layout are followed
by four more blanks. -/
theorem typeText_deepen_kennel :
    kennel.typeText kennelRegistry [] 0 =
      "Array<\x7b\n  name: string;\n  \"next-pet\"?: Pet;\n\x7d | (\"a\\nb | c\" | null)>" ∧
    kennel.typeText kennelRegistry [] 2 =
      "Array<\x7b\n      name: string;\n      \"next-pet\"?: Pet;\n    \x7d | " ++
        "(\"a\\nb | c\" | null)>" := by
  have htext : kennel.typeText kennelRegistry [] 0 =
      "Array<\x7b\n  name: string;\n  \"next-pet\"?: Pet;\n\x7d | (\"a\\nb | c\" | null)>" := by
    rw [Schema.typeText, ofSchema_kennel]
    decide +kernel
  refine ⟨htext, ?_⟩
  rw [(typeText_deepen names_kennel.1 names_kennel.2 [] (by decide : (0 : Int) ≤ 2)).1, htext]
  decide +kernel

end TypedClient
