import TypedClient.Proofs.Endpoints.Rearranged
import TypedClient.Proofs.Signatures
import TypedClient.Proofs.Script.Access

/-!
# Quoted texts of a printed file

Every tab of a file is printed as two blanks, those of its literals too. A literal in double quotes
has no tab, so it is printed as it is. One in single quotes is printed as the literal of the text
with blanks for its tabs (`expandTabs_singleQuoted`), which denotes the text exactly if the text has
neither a tab nor a line break (`string?_printed_iff`).
-/

namespace TypedClient.Script

open Text Name

variable {s value : String}

/-! ## Literals without tabs -/

theorem tab_notMem_doubleQuoted (s : String) : '\t' ∉ (doubleQuoted s).toList :=
  fun h => absurd (le_toNat_of_mem_doubleQuoted h) (by decide)

theorem tab_notMem_asciiQuoted (s : String) : '\t' ∉ (asciiQuoted s).toList :=
  fun h => absurd (le_toNat_of_mem_asciiQuoted h) (by decide)

theorem expandTabs_memberAccess {target : String} (h : '\t' ∉ target.toList) (name : String) :
    expandTabs (memberAccess target name) = memberAccess target name := by
  refine expandTabs_of_notMem ?_
  unfold memberAccess
  split
  · rename_i hname
    have htab : '\t' ∉ name.toList := notMem_of_isIdentifier hname (by decide) (by decide)
    simp [h, htab]
  · simp [h, tab_notMem_doubleQuoted]

/-! ## Single quotes -/

/-- A text in single quotes as it is printed. -/
def printed (value : String) : String :=
  expandTabs (singleQuoted value)

/-- Neither a line break of the language nor a tab is in the text. -/
def Plain (s : String) : Prop :=
  ∀ c ∈ s.toList, c ≠ '\n' ∧ c ≠ '\r' ∧ c ≠ '\t'

instance (s : String) : Decidable (Plain s) :=
  inferInstanceAs (Decidable (∀ c ∈ s.toList, c ≠ '\n' ∧ c ≠ '\r' ∧ c ≠ '\t'))

/-- Blanks come for the tabs of a text before or after it is quoted. -/
theorem expandTabs_singleQuoted (s : String) :
    expandTabs (singleQuoted s) = singleQuoted (expandTabs s) := by
  have hchar : ∀ c, (singleQuotedChar c).flatMap (fun d => if d = '\t' then [' ', ' '] else [d]) =
      (if c = '\t' then [' ', ' '] else [c]).flatMap singleQuotedChar := by
    intro c
    by_cases htab : c = '\t'
    · rw [htab]
      rfl
    · rw [if_neg htab, List.flatMap_singleton]
      unfold singleQuotedChar
      split <;> simp [htab]
  rw [expandTabs, singleQuoted, singleQuoted, expandTabs]
  simp only [String.toList_ofList, List.flatMap_cons, List.flatMap_append, List.flatMap_assoc,
    hchar]
  rfl

theorem exists_break_expandTabs :
    (∃ c ∈ (expandTabs s).toList, c = '\n' ∨ c = '\r') ↔ ∃ c ∈ s.toList, c = '\n' ∨ c = '\r' := by
  rw [expandTabs, String.toList_ofList]
  constructor
  · rintro ⟨c, hc, hbreak⟩
    obtain ⟨d, hd, hcd⟩ := List.mem_flatMap.1 hc
    split at hcd
    · rcases hbreak with rfl | rfl <;> simp at hcd
    · rw [List.mem_singleton] at hcd
      exact ⟨d, hd, hcd ▸ hbreak⟩
  · rintro ⟨c, hc, hbreak⟩
    refine ⟨c, List.mem_flatMap.2 ⟨c, hc, ?_⟩, hbreak⟩
    rcases hbreak with rfl | rfl <;> simp

theorem expandTabs_eq_self_iff : expandTabs s = s ↔ '\t' ∉ s.toList := by
  refine ⟨fun h hmem => ?_, expandTabs_of_notMem⟩
  have hnone : '\t' ∉ (expandTabs s).toList := by
    rw [expandTabs, String.toList_ofList, List.mem_flatMap]
    rintro ⟨c, -, hc⟩
    split at hc
    · simp at hc
    · rename_i hne
      exact hne (List.mem_singleton.1 hc).symm
  exact hnone (h.symm ▸ hmem)

/-- A printed literal in single quotes denotes its text exactly if the text has neither a line break
nor a tab. -/
theorem string?_printed_iff (rest : List Char) :
    string? ((printed value).toList ++ rest) = some (units value.toList, rest) ↔ Plain value := by
  rw [printed, expandTabs_singleQuoted]
  by_cases hbreak : ∃ c ∈ value.toList, c = '\n' ∨ c = '\r'
  · rw [string?_singleQuoted_of_break (exists_break_expandTabs.2 hbreak)]
    refine iff_of_false (by simp) fun hplain => ?_
    obtain ⟨c, hc, rfl | rfl⟩ := hbreak
    · exact (hplain _ hc).1 rfl
    · exact (hplain _ hc).2.1 rfl
  · rw [string?_singleQuoted (mt exists_break_expandTabs.1 hbreak), Option.some.injEq,
      Prod.mk.injEq, and_iff_left rfl]
    constructor
    -- the printed literal denotes the text with blanks, which is the text only without tabs
    · intro heq c hc
      have htab := expandTabs_eq_self_iff.1 (String.toList_injective (units_injective heq))
      exact ⟨fun h => hbreak ⟨c, hc, .inl h⟩, fun h => hbreak ⟨c, hc, .inr h⟩,
        fun h => htab (h ▸ hc)⟩
    · intro hplain
      rw [expandTabs_of_notMem fun htab => (hplain _ htab).2.2 rfl]

theorem string?_printed_eq_iff :
    string? (printed value).toList = string? (asciiQuoted value).toList ↔ Plain value := by
  have hascii := string?_asciiQuoted value []
  rw [List.append_nil] at hascii
  rw [hascii, ← string?_printed_iff [], List.append_nil]

/-! ## Parts of texts -/

/-- A text has this part. -/
structure Has (text part : String) : Prop where
  exists_eq : ∃ before after, text = before ++ part ++ after

namespace Has

variable {a b part text : String}

theorem refl (text : String) : Has text text := ⟨"", "", by simp⟩

theorem left (h : Has a part) (b : String) : Has (a ++ b) part := by
  obtain ⟨before, after, rfl⟩ := h
  exact ⟨before, after ++ b, by simp only [String.append_assoc]⟩

theorem right (h : Has b part) (a : String) : Has (a ++ b) part := by
  obtain ⟨before, after, rfl⟩ := h
  exact ⟨a ++ before, after, by simp only [String.append_assoc]⟩

theorem join {texts : List String} (htext : text ∈ texts) (h : Has text part) :
    Has (String.join texts) part := by
  induction texts with
  | nil => simp at htext
  | cons t ts ih =>
    rw [String.join_cons]
    rcases List.mem_cons.1 htext with rfl | hmem
    · exact h.left _
    · exact (ih hmem).right t

theorem expandTabs (h : Has text part) : Has (expandTabs text) (expandTabs part) := by
  obtain ⟨before, after, rfl⟩ := h
  rw [expandTabs_append, expandTabs_append]
  exact ⟨_, _, rfl⟩

theorem ofLines {lines : List String} {line : String} (h : line ∈ lines) :
    Has (Scaffold.ofLines lines) (line ++ "\n") :=
  join (List.mem_map_of_mem h) (.refl _)

end Has

/-! ## Literals of a generated client -/

/-- The printed line that sets a query parameter if it is given. -/
def queryLine (p : Parameter) : String :=
  "if (" ++ memberAccess "query" p.name ++ " !== undefined) searchParams.set(" ++
    printed p.name ++ ", String(" ++ memberAccess "query" p.name ++ "));\n"

theorem has_setQuery (level : Int) (p : Parameter) :
    Has (expandTabs (Request.setQuery level p)) (queryLine p) := by
  have haccess : expandTabs (memberAccess "query" p.name) = memberAccess "query" p.name :=
    expandTabs_memberAccess (by simp) p.name
  have hif : '\t' ∉ "if (".toList := by simp
  have hset : '\t' ∉ " !== undefined) searchParams.set(".toList := by simp
  have hstring : '\t' ∉ ", String(".toList := by simp
  have hend : '\t' ∉ "));\n".toList := by simp
  have hline : expandTabs (Request.setQuery level p) =
      expandTabs (indent level) ++ queryLine p := by
    simp only [Request.setQuery, queryLine, printed, expandTabs_append, haccess,
      expandTabs_of_notMem hif, expandTabs_of_notMem hset, expandTabs_of_notMem hstring,
      expandTabs_of_notMem hend, String.append_assoc]
  rw [hline]
  exact Has.right (.refl _) _

theorem has_query {ps : List Parameter} {p : Parameter} (hp : p ∈ ps) (level : Int) :
    Has (Request.query ps level) (Request.setQuery (level + 1) p) := by
  have hne : ps.isEmpty = false := by
    cases ps with
    | nil => cases hp
    | cons => rfl
  have hlines : Has (String.join (ps.map (Request.setQuery (level + 1))))
      (Request.setQuery (level + 1) p) := .join (List.mem_map_of_mem hp) (.refl _)
  unfold Request.query
  rw [hne, if_neg Bool.false_ne_true]
  exact ((((((hlines.right _).left _).left _).left _).left _).left _).left _

theorem has_code {reg : Registry} {e : Endpoint} {p : Parameter} (hp : p ∈ e.queryParameters)
    (error : Option String) (level : Int) :
    Has (Method.code reg e error level) (Request.setQuery (level + 1 + 1) p) := by
  have hrequest : Has (Request.text e (Signature.responseType reg e.responses) (level + 1))
      (Request.setQuery (level + 1 + 1) p) := by
    unfold Request.text
    exact ((has_query hp (level + 1)).left _).left _
  exact ((hrequest.right _).left _).left _

section

variable {i : Interface} {endpoints : List Endpoint} {code : String}
  (h : i.clientClass endpoints 0 = .ok code)

include h

theorem exists_clientClass_parts : ∃ methods before between after ending,
    List.Forall₂ (fun e s => Method.text i.registry e 1 = .ok s) endpoints methods ∧
      code = before ++ i.fields 1 ++ between ++ String.join methods ++ after ++ ending := by
  obtain ⟨-, methods, hmethods, rfl⟩ := Interface.clientClass_eq_ok.1 h
  exact ⟨methods, _, _, _, _, forall₂_of_mapM_eq_ok hmethods, rfl⟩

theorem has_clientClass {e : Endpoint} (he : e ∈ endpoints) {p : Parameter}
    (hp : p ∈ e.queryParameters) : Has code (Request.setQuery 3 p) := by
  obtain ⟨methods, before, between, after, ending, hmethods, rfl⟩ := exists_clientClass_parts h
  obtain ⟨text, htext, hmethod⟩ := exists_mem_of_forall₂ hmethods.flip he
  obtain ⟨error, -, rfl⟩ := exists_of_map_eq_ok hmethod
  exact (((Has.join htext ((has_code hp error 1).right _)).right _).left _).left _

theorem has_baseUrl :
    Has code ("private baseUrl: string = " ++ asciiQuoted i.baseUrl ++ ";" ++ "\n") := by
  obtain ⟨methods, before, between, after, ending, -, rfl⟩ := exists_clientClass_parts h
  have hline : Has (i.fields 1)
      ("private baseUrl: string = " ++ asciiQuoted i.baseUrl ++ ";" ++ "\n") := by
    have hmem : "private baseUrl: string = " ++ asciiQuoted i.baseUrl ++ ";" ∈ i.fieldLines :=
      List.mem_cons_self
    have hown : Has (indent 1 ++ ("private baseUrl: string = " ++ asciiQuoted i.baseUrl ++ ";") ++
        "\n") ("private baseUrl: string = " ++ asciiQuoted i.baseUrl ++ ";" ++ "\n") := by
      rw [String.append_assoc]
      exact Has.right (.refl _) _
    exact (Has.join (List.mem_map_of_mem hmem) hown).left _
  exact ((((hline.right _).left _).left _).left _).left _

end

theorem has_clientFile (i : Interface) {code part : String} (hpart : Has code part)
    (name : String) : Has (i.clientFile code name).text (expandTabs part) := by
  rw [Interface.text_clientFile]
  exact (hpart.expandTabs.right _).left _

theorem expandTabs_baseUrlLine (baseUrl : String) :
    expandTabs ("private baseUrl: string = " ++ asciiQuoted baseUrl ++ ";" ++ "\n") =
      "private baseUrl: string = " ++ asciiQuoted baseUrl ++ ";" ++ "\n" :=
  expandTabs_of_notMem (by simp [tab_notMem_asciiQuoted])

/-- The line of the example file with the base address. -/
theorem has_exampleFile (d : Description) (endpoints : List Endpoint) (clientFile : String) :
    Has (d.exampleFile endpoints clientFile).text
      ("  baseUrl: " ++ printed d.interface.baseUrl ++ "," ++ "\n") := by
  have hline : Has (ExampleFile.text d.interface.registry endpoints d.interface.className
      (ExampleFile.modulePath clientFile) d.interface.baseUrl)
      ("  baseUrl: " ++ singleQuoted d.interface.baseUrl ++ "," ++ "\n") := by
    unfold ExampleFile.text
    exact ((Has.ofLines (by simp [ExampleFile.header])).left _).left _
  have hbefore : '\t' ∉ "  baseUrl: ".toList := by simp
  have hcomma : '\t' ∉ ",".toList := by simp
  have hfeed : '\t' ∉ "\n".toList := by simp
  have hprinted := hline.expandTabs
  rw [expandTabs_append, expandTabs_append, expandTabs_append, expandTabs_of_notMem hbefore,
    expandTabs_of_notMem hcomma, expandTabs_of_notMem hfeed] at hprinted
  have htext : (d.exampleFile endpoints clientFile).text = expandTabs (ExampleFile.text
      d.interface.registry endpoints d.interface.className (ExampleFile.modulePath clientFile)
      d.interface.baseUrl) := by
    simp [Description.exampleFile, CodeFile.text, CodeFile.arranged, CodeFile.insert,
      CodeBlock.text]
  rw [htext]
  exact hprinted

/-- A literal in single quotes denotes its text in the printed file exactly if the text has neither
a line break nor a tab. In the files of a client the names of query parameters and the base address
of the example are such literals, so the base address of the example is the one of the client under
the same condition. -/
theorem printed_denotes_iff (order : Int) (before value after : String) :
    (CodeBlock.mk order (before ++ singleQuoted value ++ after)).text =
      expandTabs before ++ printed value ++ expandTabs after ∧
    (∀ rest, string? ((printed value).toList ++ rest) = some (units value.toList, rest) ↔
      Plain value) ∧
    ∀ {raw : Value} {options : Options} {project : Project} {notices : List Notice},
      generate raw options = .ok (project, notices) →
      ∃ doc found client rest, Document.ofValue raw = .ok doc ∧ doc.endpoints = .ok found ∧
        project.files = client :: rest ∧ rest.length = options.includeExample.toNat ∧
        (∀ e ∈ found.items, ∀ p ∈ e.queryParameters, Has client.text (queryLine p)) ∧
        Has client.text ("private baseUrl: string = " ++ asciiQuoted doc.baseUrl ++ ";" ++ "\n") ∧
        (∀ file ∈ rest, Has file.text ("  baseUrl: " ++ printed doc.baseUrl ++ "," ++ "\n")) ∧
        (∀ rest, string? ((asciiQuoted doc.baseUrl).toList ++ rest) =
          some (units doc.baseUrl.toList, rest)) ∧
        (string? (printed doc.baseUrl).toList = string? (asciiQuoted doc.baseUrl).toList ↔
          Plain doc.baseUrl) := by
  refine ⟨?_, string?_printed_iff, fun {raw options project notices} h => ?_⟩
  · rw [CodeBlock.text, expandTabs_append, expandTabs_append, printed]
  obtain ⟨doc, reg, found, code, hyields, -⟩ := exists_yields h
  have hproject := hyields.generate_eq
  rw [h] at hproject
  cases hproject
  refine ⟨doc, found, _, _, hyields.document, hyields.endpoints, rfl, ?_, fun e he p hp => ?_, ?_,
    fun file hfile => ?_, string?_asciiQuoted doc.baseUrl, string?_printed_eq_iff⟩
  · cases options.includeExample <;> rfl
  · obtain ⟨before, after, heq⟩ := has_clientFile _ (has_clientClass hyields.clientClass he hp)
      options.clientFile
    rw [heq]
    exact ((has_setQuery 3 p).right _).left _
  · have hline := has_clientFile (doc.interface options.sourceUrl reg)
      (has_baseUrl hyields.clientClass) options.clientFile
    rwa [expandTabs_baseUrlLine] at hline
  · split at hfile
    · rw [List.mem_singleton.1 hfile]
      exact has_exampleFile _ _ _
    · cases hfile

/-- The pets are asked for by the name that the description gives to the parameter. -/
theorem printed_denotes_pets : ∃ project notices client rest,
    generate (petsValue []) .default = .ok (project, notices) ∧ project.files = client :: rest ∧
      Has client.text
        "if (query.after !== undefined) searchParams.set('after', String(query.after));\n" ∧
      string? "'after'".toList = some (units "after".toList, []) := by
  have hdoc : Document.ofValue (petsValue []) = .ok (petsDocument []) := rfl
  have hreg : (petsDocument []).registry = .ok (.ofPairs []) := Document.registry_eq_ok _ rfl
  obtain ⟨⟨project, notices⟩, hp⟩ := exists_generate_pets hdoc (by decide) hreg
    (.of_entries_eq_nil rfl)
  have hafter : Plain "after" := by simp [Plain]
  obtain ⟨-, hread, hgenerated⟩ := printed_denotes_iff 0 "" "after" ""
  obtain ⟨doc, found, client, rest, hdoc', hfound, hfiles, -, hquery, -⟩ := hgenerated hp
  cases hdoc.symm.trans hdoc'
  cases hfound.symm.trans (petsDocument_endpoints [])
  have hline := hquery _ (List.mem_singleton_self _) _ (List.mem_singleton_self _)
  rw [queryLine] at hline
  have hliteral := (hread []).2 hafter
  rw [List.append_nil] at hliteral
  exact ⟨project, notices, client, rest, hp, hfiles, hline, hliteral⟩

/-- A line break ends the literal too early, and a tab comes back as two blanks. -/
theorem not_printed_denotes :
    string? (CodeBlock.mk 0 (singleQuoted "a\nb")).text.toList = none ∧
    string? (CodeBlock.mk 0 (singleQuoted "a\tb")).text.toList = some (units "a  b".toList, []) ∧
    string? (asciiQuoted "a\tb").toList = some (units "a\tb".toList, []) := by
  decide +kernel

end TypedClient.Script
