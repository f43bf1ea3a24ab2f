import TypedClient.Proofs.Failure.Variant
import TypedClient.Proofs.Generated

/-!
# Names at the top level of the client file

The client file exports five fixed types, a type for every named schema, and the client class. The
name of the class is an identifier for every title and ends like no fixed name, so these names never
meet. A schema gives its type the name that it has in the document, tabs apart; so whether the
exported names are identifiers, and whether they are distinct, is up to the document alone
(`topLevelNames_of_generate`).
-/

namespace TypedClient

open Text

/-! ## Identifiers -/

namespace Name

/-- An identifier of letters, digits, `_` and `$`, with nothing overlooked. -/
def isTypeName (name : String) : Bool :=
  match name.toList with
  | [] => false
  | c :: rest => isIdentifierStart c && rest.all isIdentifierPart

theorem isIdentifierPart_of_mem {name : String} (h : isTypeName name = true) {c : Char}
    (hc : c ∈ name.toList) : isIdentifierPart c = true := by
  unfold isTypeName at h
  split at h
  · cases h
  · rename_i a rest hname
    rw [Bool.and_eq_true, List.all_eq_true] at h
    rw [hname, List.mem_cons] at hc
    rcases hc with rfl | hc
    · simp [isIdentifierPart, h.1]
    · exact h.2 c hc

theorem isAlpha_eq (c : Char) : c.isAlpha = (c.isUpper || c.isLower) := rfl

theorem toNat_lt_of_isWordChar {c : Char} (h : isWordChar c = true) : c.toNat < 128 := by
  have hupper : c.isUpper = decide ('A'.val ≤ c.val ∧ c.val ≤ 'Z'.val) := rfl
  have hlower : c.isLower = (decide ('a'.val ≤ c.val) && decide (c.val ≤ 'z'.val)) := rfl
  have hdigit : c.isDigit = (decide ('0'.val ≤ c.val) && decide (c.val ≤ '9'.val)) := rfl
  simp only [isWordChar, isAlpha_eq, hupper, hlower, hdigit, Bool.or_eq_true, decide_eq_true_eq,
    Bool.and_eq_true, UInt32.le_iff_toNat_le] at h
  have : 'z'.val.toNat = 122 := rfl
  have : 'Z'.val.toNat = 90 := rfl
  have : '9'.val.toNat = 57 := rfl
  have : c.toNat = c.val.toNat := rfl
  omega

/-- What holds of the first 128 characters holds of every one of them. -/
theorem of_ascii {P : Char → Prop} (hall : ∀ n < 128, P (Char.ofNat n)) {c : Char}
    (hc : c.toNat < 128) : P c := by
  have hsame := hall c.toNat hc
  rwa [Char.ofNat_toNat] at hsame

theorem of_isWordChar {P : Char → Prop}
    (hall : ∀ n < 128, isWordChar (Char.ofNat n) = true → P (Char.ofNat n)) {c : Char}
    (h : isWordChar c = true) : P c :=
  of_ascii (P := fun c => isWordChar c = true → P c) hall (toNat_lt_of_isWordChar h) h

theorem isWordChar_toUpper {c : Char} (h : isWordChar c = true) : isWordChar c.toUpper = true :=
  of_isWordChar (P := fun c => isWordChar c.toUpper = true) (by decide) h

theorem isIdentifierPart_of_isWordChar {c : Char} (h : isWordChar c = true) :
    isIdentifierPart c = true := by
  rw [isWordChar, Bool.or_eq_true] at h
  rcases h with h | h <;> simp [isIdentifierPart, isIdentifierStart, h]

theorem toNat_lt_of_isIdentifierPart {c : Char} (h : isIdentifierPart c = true) :
    c.toNat < 128 := by
  by_contra hlarge
  have hword : isWordChar c = false := by
    rw [← Bool.not_eq_true]
    exact fun h => hlarge (toNat_lt_of_isWordChar h)
  rw [isWordChar, Bool.or_eq_false_iff] at hword
  have hmarks : c ≠ '_' ∧ c ≠ '$' := by
    constructor <;> (rintro rfl; exact hlarge (by decide))
  simp [isIdentifierPart, isIdentifierStart, hword, hmarks] at h

theorem of_isIdentifierPart {P : Char → Prop}
    (hall : ∀ n < 128, isIdentifierPart (Char.ofNat n) = true → P (Char.ofNat n)) {c : Char}
    (h : isIdentifierPart c = true) : P c :=
  of_ascii (P := fun c => isIdentifierPart c = true → P c) hall (toNat_lt_of_isIdentifierPart h) h

theorem isWordChar_of_mem_titleWords {title : String} {c : Char} (h : c ∈ titleWords title) :
    isWordChar c = true := by
  have hfilter : ∀ d ∈ title.toList.filter isWordChar, isWordChar d = true :=
    fun d hd => (List.mem_filter.1 hd).2
  unfold titleWords at h
  split at h
  · cases h
  · rename_i a rest hwords
    rw [hwords] at hfilter
    rcases List.mem_cons.1 h with rfl | h
    · exact isWordChar_toUpper (hfilter a List.mem_cons_self)
    · exact hfilter c (List.mem_cons_of_mem a h)

theorem isTypeName_of_toList {name : String} {c : Char} {rest : List Char}
    (h : name.toList = c :: rest) :
    isTypeName name = (isIdentifierStart c && rest.all isIdentifierPart) := by
  rw [isTypeName, h]

/-- Word characters with a guarded digit in front begin an identifier, whatever identifier follows
them. -/
theorem isTypeName_guardDigit {words : List Char} (h : ∀ c ∈ words, isWordChar c = true)
    {ending : String} (hending : isTypeName ending = true) :
    isTypeName (String.ofList (guardDigit words) ++ ending) = true := by
  have hall : (words ++ ending.toList).all isIdentifierPart = true := by
    refine List.all_eq_true.2 fun c hc => ?_
    rcases List.mem_append.1 hc with hc | hc
    · exact isIdentifierPart_of_isWordChar (h c hc)
    · exact isIdentifierPart_of_mem hending hc
  rcases words with _ | ⟨c, rest⟩
  · simpa [guardDigit] using hending
  · by_cases hdigit : c.isDigit = true
    · have htext : (String.ofList (guardDigit (c :: rest)) ++ ending).toList =
          '_' :: (c :: rest ++ ending.toList) := by
        simp [guardDigit, hdigit]
      rw [isTypeName_of_toList htext, hall]
      rfl
    · have htext : (String.ofList (guardDigit (c :: rest)) ++ ending).toList =
          c :: (rest ++ ending.toList) := by
        simp [guardDigit, hdigit]
      have hstart : isIdentifierStart c = true := by
        have hc := h c List.mem_cons_self
        rw [isWordChar, Bool.or_eq_true, or_iff_left hdigit] at hc
        simp [isIdentifierStart, hc]
      rw [List.cons_append, List.all_cons, Bool.and_eq_true] at hall
      rw [isTypeName_of_toList htext, hstart, hall.2]
      rfl

theorem isTypeName_clientClass (title : String) :
    isTypeName (clientClass title classEnding) = true :=
  isTypeName_guardDigit (fun _ => isWordChar_of_mem_titleWords) (by decide)

end Name

/-! ## Tabs -/

namespace Text

theorem expandTabs_append (a b : String) : expandTabs (a ++ b) = expandTabs a ++ expandTabs b := by
  simp [expandTabs]

theorem expandTabs_join : ∀ texts : List String,
    expandTabs (String.join texts) = String.join (texts.map expandTabs)
  | [] => rfl
  | t :: ts => by
    rw [String.join_cons, expandTabs_append, expandTabs_join ts, List.map_cons, String.join_cons]

theorem expandTabs_of_notMem {s : String} (h : '\t' ∉ s.toList) : expandTabs s = s := by
  have hsame : ∀ cs : List Char, '\t' ∉ cs →
      cs.flatMap (fun c => if c = '\t' then [' ', ' '] else [c]) = cs := by
    intro cs hcs
    induction cs with
    | nil => rfl
    | cons c cs ih =>
      rw [List.mem_cons, not_or] at hcs
      rw [List.flatMap_cons, ih hcs.2, if_neg (Ne.symm hcs.1), List.singleton_append]
  rw [expandTabs, hsame _ h, String.ofList_toList]

theorem expandTabs_append_of_notMem {s t : String} (h : '\t' ∉ s.toList) :
    expandTabs (s ++ t) = s ++ expandTabs t := by
  rw [expandTabs_append, expandTabs_of_notMem h]

/-- Two texts between three others that have no tabs. -/
theorem expandTabs_between {a b c s t : String} (ha : '\t' ∉ a.toList) (hb : '\t' ∉ b.toList)
    (hc : '\t' ∉ c.toList) :
    expandTabs (a ++ s ++ b ++ t ++ c) = a ++ expandTabs s ++ b ++ expandTabs t ++ c := by
  simp only [expandTabs_append, expandTabs_of_notMem ha, expandTabs_of_notMem hb,
    expandTabs_of_notMem hc]

/-- A text that has got blanks for its tabs is no text without blanks. -/
theorem expandTabs_eq_iff {s t : String} (htab : '\t' ∉ t.toList) (hblank : ' ' ∉ t.toList) :
    expandTabs s = t ↔ s = t := by
  by_cases h : '\t' ∈ s.toList
  · have hs : ' ' ∈ (expandTabs s).toList := by
      rw [expandTabs, String.toList_ofList]
      exact List.mem_flatMap.2 ⟨'\t', h, by simp⟩
    constructor
    · rintro rfl
      exact absurd hs hblank
    · rintro rfl
      exact absurd h htab
  · rw [expandTabs_of_notMem h]

end Text

theorem Name.expandTabs_eq_iff_of_isTypeName {s t : String} (h : Name.isTypeName t = true) :
    expandTabs s = t ↔ s = t := by
  refine expandTabs_eq_iff ?_ ?_ <;>
    exact fun hc => absurd (Name.isIdentifierPart_of_mem h hc) (by decide)

theorem Name.isTypeName_expandTabs (s : String) :
    Name.isTypeName (expandTabs s) = Name.isTypeName s := by
  rw [Bool.eq_iff_iff]
  constructor <;> intro h
  · rwa [(Name.expandTabs_eq_iff_of_isTypeName h).1 rfl]
  · rwa [(Name.expandTabs_eq_iff_of_isTypeName h).2 rfl]

/-! ## Fixed text -/

namespace Text

/-- A literal is the text of its characters by one step of computation, while decoding a text takes
many steps for each character. So what is computed from fixed texts is computed from characters. -/
theorem toList_of_chars {s : String} {cs : List Char} (h : s = String.ofList cs) :
    s.toList = cs := by
  rw [h, String.toList_ofList]

theorem append_of_chars {s t : String} {cs ds : List Char} (hs : s = String.ofList cs)
    (ht : t = String.ofList ds) : s ++ t = String.ofList (cs ++ ds) := by
  rw [hs, ht, String.ofList_append]

theorem map_toList_of_chars (texts : List String) {chars : List (List Char)}
    (h : List.Forall₂ (fun s cs => s = String.ofList cs) texts chars) :
    texts.map String.toList = chars := by
  induction h with
  | nil => rfl
  | cons hs _ ih => rw [List.map_cons, ih, toList_of_chars hs]

theorem forall_mem_of_chars {P : List Char → Prop} {texts : List String} {chars : List (List Char)}
    (h : List.Forall₂ (fun s cs => s = String.ofList cs) texts chars)
    (hchars : ∀ cs ∈ chars, P cs) : ∀ s ∈ texts, P s.toList := by
  rwa [← map_toList_of_chars texts h, List.forall_mem_map] at hchars

end Text

/-! ## The names that the client file exports -/

namespace Interface

/-- The name that a line of the fixed text exports as a type. -/
def exportedName? (line : String) : Option String :=
  (dropStart? "export type ".toList line.toList).map fun rest =>
    String.ofList (rest.takeWhile Name.isIdentifierPart)

/-- The names of the types that every client file has. -/
def fixedNames : List String :=
  Scaffold.resultTypes.filterMap exportedName?

/-- The names of the types of the named schemas, as they stand in the file. -/
def aliasNames (i : Interface) : List String :=
  i.registry.names.map expandTabs

/-- The names that the client file exports, in order. -/
def topLevelNames (i : Interface) : List String :=
  fixedNames ++ i.aliasNames ++ [i.className]

theorem fixedNames_eq : fixedNames =
    ["ApiError", "ApiSuccess", "ApiResult", "RequestInterceptor", "ResponseInterceptor"] := by
  have hname : exportedName? = (fun cs => (dropStart? "export type ".toList cs).map fun rest =>
      String.ofList (rest.takeWhile Name.isIdentifierPart)) ∘ String.toList := rfl
  rw [fixedNames, hname, ← List.filterMap_map,
    map_toList_of_chars Scaffold.resultTypes (by repeat constructor)]
  rfl

variable (i : Interface)

theorem isTypeName_of_mem_fixedNames : ∀ n ∈ fixedNames, Name.isTypeName n = true := by
  rw [fixedNames_eq]
  decide

theorem isTypeName_className : Name.isTypeName i.className = true :=
  Name.isTypeName_clientClass i.title

theorem className_notMem_fixedNames : i.className ∉ fixedNames := by
  -- no fixed name ends like a class
  have hending : ∀ n ∈ fixedNames, ¬ "Client".toList <:+ n.toList := by
    rw [fixedNames_eq]
    decide
  intro h
  refine hending _ h ?_
  rw [className, Name.clientClass, Name.classEnding, String.toList_append]
  exact List.suffix_append _ _

theorem isTypeName_aliasNames :
    (∀ n ∈ i.aliasNames, Name.isTypeName n = true) ↔
      ∀ n ∈ i.registry.names, Name.isTypeName n = true := by
  simp [aliasNames, Name.isTypeName_expandTabs]

theorem mem_aliasNames_of_isTypeName {n : String} (h : Name.isTypeName n = true) :
    n ∈ i.aliasNames ↔ n ∈ i.registry.names := by
  simp [aliasNames, Name.expandTabs_eq_iff_of_isTypeName h]

theorem isTypeName_of_mem_fixed_append :
    ∀ n ∈ fixedNames ++ [i.className], Name.isTypeName n = true := by
  intro n hn
  rcases List.mem_append.1 hn with hn | hn
  · exact isTypeName_of_mem_fixedNames n hn
  · rw [List.mem_singleton.1 hn]
    exact i.isTypeName_className

theorem nodup_fixed_append : (fixedNames ++ [i.className]).Nodup := by
  have hfixed : fixedNames.Nodup := by
    rw [fixedNames_eq]
    decide
  refine List.nodup_append.2 ⟨hfixed, by simp, ?_⟩
  rintro a ha _ hc rfl
  rw [List.mem_singleton.1 hc] at ha
  exact i.className_notMem_fixedNames ha

/-- The exported names are distinct if no schema is named like a fixed type or the class, and no two
schemas have the same name in the file. -/
theorem nodup_topLevelNames : i.topLevelNames.Nodup ↔
    i.aliasNames.Nodup ∧ i.className ∉ i.registry.names ∧
      ∀ n ∈ fixedNames, n ∉ i.registry.names := by
  have hfixed : fixedNames.Nodup := by
    rw [fixedNames_eq]
    decide
  have hclass := i.className_notMem_fixedNames
  rw [← i.mem_aliasNames_of_isTypeName i.isTypeName_className]
  have hmem : (∀ n ∈ fixedNames, n ∉ i.registry.names) ↔ ∀ n ∈ fixedNames, n ∉ i.aliasNames :=
    forall₂_congr fun n hn =>
      not_congr (i.mem_aliasNames_of_isTypeName (isTypeName_of_mem_fixedNames n hn)).symm
  -- the class is no fixed name, so only the names of schemas can meet others
  rw [hmem, topLevelNames, List.append_assoc, List.nodup_append, List.nodup_append]
  have hsingle : [i.className].Nodup := by simp
  simp only [hfixed, hsingle, true_and, List.mem_append, List.mem_singleton]
  constructor
  · rintro ⟨⟨halias, hlast⟩, hdisjoint⟩
    exact ⟨halias, fun h => hlast _ h _ rfl rfl,
      fun n hn h => hdisjoint n hn n (.inl h) rfl⟩
  · rintro ⟨halias, hlast, hdisjoint⟩
    refine ⟨⟨halias, ?_⟩, ?_⟩
    · rintro a ha _ rfl rfl
      exact hlast ha
    · rintro a ha b (hb | rfl) rfl
      · exact hdisjoint a ha hb
      · exact hclass ha

/-- The types of the named schemas, as they stand in the file. -/
def aliasTypes : List String :=
  i.registry.entries.map fun e => expandTabs (e.2.typeText i.registry [e.1] 0)

/-- The comment at the head of the file. -/
def comment : String :=
  Scaffold.ofLines (Scaffold.headerOpening ++ i.sourceLines ++ Scaffold.headerRest)

/-- A text of a client file: a comment and the fixed types, then a block for the name of every
schema in order, then the class. -/
def Exports (text : String) : Prop :=
  ∃ body, text =
    expandTabs i.comment ++ expandTabs (Scaffold.ofLines Scaffold.resultTypes) ++
      "// Type definitions\n\n" ++
      String.join ((i.aliasNames.zip i.aliasTypes).map fun a =>
        "export type " ++ a.1 ++ " = " ++ a.2 ++ ";\n\n") ++
      "export class " ++ i.className ++ " \x7b\n" ++ body

theorem expandTabs_declaration (reg : Registry) (name : String) (s : Schema) :
    expandTabs (declaration reg name s) =
      "export type " ++ expandTabs name ++ " = " ++ expandTabs (s.typeText reg [name] 0) ++
        ";\n\n" :=
  expandTabs_between (by simp) (by simp) (by simp)

theorem expandTabs_blocks :
    expandTabs (String.join (i.registry.entries.map fun e => declaration i.registry e.1 e.2)) =
      String.join ((i.aliasNames.zip i.aliasTypes).map fun a =>
        "export type " ++ a.1 ++ " = " ++ a.2 ++ ";\n\n") := by
  rw [expandTabs_join, aliasNames, aliasTypes, Registry.names, Assoc.names, List.map_map,
    List.map_map, List.zip_map', List.map_map]
  exact congrArg String.join
    (List.map_congr_left fun e _ => expandTabs_declaration i.registry e.1 e.2)

theorem expandTabs_types : expandTabs i.types = "// Type definitions\n\n" ++
    String.join ((i.aliasNames.zip i.aliasTypes).map fun a =>
      "export type " ++ a.1 ++ " = " ++ a.2 ++ ";\n\n") := by
  have hhead (blocks : String) : expandTabs ("// Type definitions\n\n" ++ blocks) =
      "// Type definitions\n\n" ++ expandTabs blocks := expandTabs_append_of_notMem (by simp)
  calc expandTabs i.types = _ := hhead _
    _ = _ := congrArg _ i.expandTabs_blocks

theorem expandTabs_header : expandTabs i.header =
    expandTabs i.comment ++ expandTabs (Scaffold.ofLines Scaffold.resultTypes) := by
  rw [header, Scaffold.ofLines_append, expandTabs_append, comment]

theorem exists_clientClass_eq {endpoints : List Endpoint} {code : String}
    (h : i.clientClass endpoints 0 = .ok code) :
    ∃ rest, code = "export class " ++ i.className ++ " \x7b\n" ++ rest := by
  obtain ⟨-, methods, -, rfl⟩ := clientClass_eq_ok.1 h
  have hregroup (a b c d e f g k : String) : "" ++ a ++ b ++ c ++ d ++ e ++ f ++ g ++ k =
      a ++ b ++ c ++ (d ++ e ++ f ++ g ++ k) := by
    simp only [String.empty_append, String.append_assoc]
  exact ⟨_, hregroup _ _ _ _ _ _ _ _⟩

/-- The text of the class opens with its name. -/
theorem exists_expandTabs_clientClass {endpoints : List Endpoint} {code : String}
    (h : i.clientClass endpoints 0 = .ok code) :
    ∃ body, expandTabs code = "export class " ++ i.className ++ " \x7b\n" ++ body := by
  obtain ⟨rest, rfl⟩ := i.exists_clientClass_eq h
  have hname : expandTabs i.className = i.className :=
    (Name.expandTabs_eq_iff_of_isTypeName i.isTypeName_className).2 rfl
  refine ⟨expandTabs rest, ?_⟩
  rw [expandTabs_append, expandTabs_append, expandTabs_append, hname,
    expandTabs_of_notMem (s := "export class ") (by simp),
    expandTabs_of_notMem (s := " \x7b\n") (by simp)]

theorem text_clientFile (clientClass name : String) : (i.clientFile clientClass name).text =
    expandTabs i.header ++ expandTabs i.types ++ expandTabs clientClass ++
      expandTabs i.exportLine := by
  simp [clientFile, CodeFile.text, CodeFile.arranged, CodeFile.insert, CodeBlock.text,
    String.append_assoc]

theorem exports_clientFile {endpoints : List Endpoint} {code : String}
    (h : i.clientClass endpoints 0 = .ok code) (name : String) :
    i.Exports (i.clientFile code name).text := by
  obtain ⟨body, hbody⟩ := i.exists_expandTabs_clientClass h
  refine ⟨body ++ expandTabs i.exportLine, ?_⟩
  rw [text_clientFile, expandTabs_header, expandTabs_types, hbody]
  simp only [String.append_assoc]

end Interface

/-- What the file of a generated client exports at its top level. The fixed names and the class are
distinct identifiers whatever the title is; the names of the schemas are as the document has them,
so they are identifiers, and different from each other and from the rest, if the document makes them
so. -/
theorem topLevelNames_of_generate {raw : Value} {options : Options} {project : Project}
    {notices : List Notice} (h : generate raw options = .ok (project, notices)) :
    ∃ doc reg file, Document.ofValue raw = .ok doc ∧ doc.registry = .ok reg ∧
      (∀ n, n ∈ reg.names ↔ n ∈ Assoc.names doc.schemas) ∧ project.files.head? = some file ∧
      let i := doc.interface options.sourceUrl reg
      i.Exports file.text ∧
      (∀ n ∈ Interface.fixedNames ++ [i.className], Name.isTypeName n = true) ∧
      (Interface.fixedNames ++ [i.className]).Nodup ∧
      ((∀ n ∈ i.aliasNames, Name.isTypeName n = true) ↔
        ∀ n ∈ reg.names, Name.isTypeName n = true) ∧
      (i.topLevelNames.Nodup ↔ (reg.names.map expandTabs).Nodup ∧ i.className ∉ reg.names ∧
        ∀ n ∈ ["ApiError", "ApiSuccess", "ApiResult", "RequestInterceptor",
          "ResponseInterceptor"], n ∉ reg.names) := by
  obtain ⟨doc, reg, found, code, hyields, hfile⟩ := exists_yields h
  refine ⟨doc, reg, _, hyields.document, hyields.registry,
    fun n => Document.mem_names_registry hyields.registry, hfile, ?_⟩
  intro i
  rw [← Interface.fixedNames_eq]
  exact ⟨i.exports_clientFile hyields.clientClass _, i.isTypeName_of_mem_fixed_append,
    i.nodup_fixed_append, i.isTypeName_aliasNames, i.nodup_topLevelNames⟩

/-- A description without paths. -/
def titledValue (title : String) (schemas : List (Value × Value)) : Value :=
  .map [
    (.text "openapi", .text "3.0.0"),
    (.text "info", .map [(.text "title", .text title), (.text "version", .text "1")]),
    (.text "paths", .map []),
    (.text "components", .map [(.text "schemas", .map schemas)])]

def titledDocument (title : String) (schemas : List (String × Value)) : Document where
  format := "3.0.0"
  info := ⟨title, "1", none⟩
  servers := []
  paths := []
  components := some ⟨schemas, []⟩

theorem exists_generate_titled {title : String} {entries : List (Value × Value)}
    {schemas : List (String × Value)} {reg : Registry}
    (hdoc : Document.ofValue (titledValue title entries) = .ok (titledDocument title schemas))
    (htexts : Document.readsTexts (titledValue title entries) = true)
    (hreg : (titledDocument title schemas).registry = .ok reg) (hbare : reg.IsBare) :
    ∃ p, generate (titledValue title entries) .default = .ok p := by
  have hfound : (titledDocument title schemas).endpoints = .ok ⟨[], []⟩ := rfl
  exact exists_generate_eq_ok hdoc htexts hreg hfound (by simp) fun v hv =>
    absurd hv (hbare.not_showsChoice (by simp))

/-- A schema with an ordinary name leaves all names of the file valid and distinct. -/
theorem topLevelNames_of_generate_titled : ∃ (pet : Value) (i : Interface),
    (∃ p, generate (titledValue "pet Store" [(.text "Pet", pet)]) .default = .ok p) ∧
      i.topLevelNames = ["ApiError", "ApiSuccess", "ApiResult",
        "RequestInterceptor", "ResponseInterceptor", "Pet", "PetStoreClient"] ∧
      (∀ n ∈ i.aliasNames, Name.isTypeName n = true) ∧ i.topLevelNames.Nodup := by
  let pet : Value := .map [(.text "type", .text "integer")]
  have hdoc : Document.ofValue (titledValue "pet Store" [(.text "Pet", pet)]) =
      .ok (titledDocument "pet Store" [("Pet", pet)]) := rfl
  have hschemas : (titledDocument "pet Store" [("Pet", pet)]).schemas = [("Pet", pet)] := rfl
  obtain ⟨reg, hreg, hreg_entries, hbare⟩ := Document.exists_registry_primitive .integer hschemas
  have hreg_names : reg.names = ["Pet"] := by rw [Registry.names, hreg_entries]; rfl
  obtain ⟨⟨project, notices⟩, hp⟩ := exists_generate_titled hdoc (by decide) hreg hbare
  obtain ⟨_, _, _, h₁, h₂, -, -, -, -, -, hvalid, hnodup⟩ := topLevelNames_of_generate hp
  cases hdoc.symm.trans h₁
  cases hreg.symm.trans h₂
  have hclass : Name.clientClass "pet Store" Name.classEnding = "PetStoreClient" := by
    decide +kernel
  refine ⟨pet, _, ⟨_, hp⟩, ?_, hvalid.2 ?_, hnodup.2 ⟨?_, ?_, ?_⟩⟩
  · rw [Interface.topLevelNames, Interface.fixedNames_eq, Interface.aliasNames, Interface.className]
    simp only [Document.interface, titledDocument, hreg_names, hclass]
    rfl
  · rw [hreg_names]
    decide
  · rw [hreg_names]
    decide
  · rw [hreg_names, Interface.className]
    simp only [Document.interface, titledDocument, hclass]
    decide
  · rw [hreg_names]
    decide

/-- Two schemas, one under a name that no type can have and one under a name that is taken. -/
def clashingValue : Value :=
  titledValue "Pets" [(.text "pet-item", .map [(.text "type", .text "integer")]),
    (.text "ApiError", .map [(.text "type", .text "integer")])]

theorem exists_generate_clashingValue :
    ∃ doc reg p, generate clashingValue .default = .ok p ∧
      Document.ofValue clashingValue = .ok doc ∧ doc.registry = .ok reg ∧
      (¬ ∀ n ∈ (doc.interface none reg).aliasNames, Name.isTypeName n = true) ∧
      ¬ (doc.interface none reg).topLevelNames.Nodup := by
  let pet : Value := .map [(.text "type", .text "integer")]
  have hdoc : Document.ofValue clashingValue =
      .ok (titledDocument "Pets" [("pet-item", pet), ("ApiError", pet)]) := rfl
  have hread : [pet, pet].mapM Schema.ofValue =
      .ok (.replicate 2 (.primitive ⟨.integer, none, .null, none, none⟩)) := by
    have hpet : Schema.ofValue pet = .ok (.primitive ⟨.integer, none, .null, none, none⟩) :=
      Schema.ofValue_primitive .integer
    rw [List.mapM_cons, mapM_singleton_eq_ok hpet, hpet]
    rfl
  obtain ⟨reg, hreg, hreg_entries⟩ : ∃ reg,
      (titledDocument "Pets" [("pet-item", pet), ("ApiError", pet)]).registry = .ok reg ∧
        reg.entries = [("pet-item", .primitive ⟨.integer, none, .null, none, none⟩),
          ("ApiError", .primitive ⟨.integer, none, .null, none, none⟩)] :=
    ⟨_, Document.registry_eq_ok _ hread, rfl⟩
  have hreg_names : reg.names = ["pet-item", "ApiError"] := by
    rw [Registry.names, hreg_entries]
    rfl
  have hbare : reg.IsBare := by
    rw [Registry.IsBare, hreg_entries, List.forall_mem_cons, List.forall_mem_singleton]
    exact ⟨⟨_, rfl, rfl⟩, ⟨_, rfl, rfl⟩⟩
  obtain ⟨p, hp⟩ := exists_generate_titled hdoc (by decide) hreg hbare
  refine ⟨_, reg, p, hp, hdoc, hreg, fun h => ?_, fun h => ?_⟩
  · have hmem : "pet-item" ∈ reg.names := by simp [hreg_names]
    exact absurd ((Interface.isTypeName_aliasNames _).1 h "pet-item" hmem) (by decide)
  · have hmem : "ApiError" ∈ reg.names := by simp [hreg_names]
    have hfixed : "ApiError" ∈ Interface.fixedNames := by simp [Interface.fixedNames_eq]
    exact ((Interface.nodup_topLevelNames _).1 h).2.2 _ hfixed hmem

end TypedClient
