import TypedClient.Proofs.Methods.Response
import TypedClient.Proofs.Methods.Substitutions

/-!
# Signature and body of a method

The body of a method is fixed text around four places: the address, the lines that set query
parameters, the line that sets the request body, and the type of the response. The fixed text
mentions no argument (`Neutral`), the lines read what the signature declares (`Guards`,
`SendsBody`), and so does the address of a path without escapes (`uses_declared`).
-/

namespace TypedClient.Method

open Text Name Script

variable {cs ds word : List Char} {c : Char} {s : String}

/-! ## Fixed text -/

/-- The words of a code: its longest runs of characters of identifiers, and empty ones. -/
def words (cs : List Char) : List (List Char) :=
  splitAt ' ' (cs.map fun c => if isIdentifierPart c then c else ' ')

theorem words_append (hc : isIdentifierPart c = false) (cs ds : List Char) :
    words (cs ++ c :: ds) = words cs ++ words ds := by
  rw [words, List.map_append, List.map_cons, hc, if_neg Bool.false_ne_true, splitAt_append]
  rfl

theorem mem_words_spaces (hne : word ≠ []) {n : Nat}
    (h : word ∈ words (List.replicate n ' ' ++ cs)) : word ∈ words cs := by
  induction n with
  | zero => exact h
  | succ n ih =>
    have hspace := words_append (c := ' ') (by decide) [] (List.replicate n ' ' ++ cs)
    rw [List.replicate_succ, List.cons_append, ← List.nil_append (' ' :: _), hspace,
      List.mem_append] at h
    rcases h with h | h
    · exact absurd (List.mem_singleton.1 h) hne
    · exact ih h

/-- The arguments of a method, and what sets a query parameter. -/
def telltales : List String := ["params", "query", "body", "set"]

/-- The code mentions no argument of a method and sets no query parameter. -/
def Neutral (code : String) : Prop :=
  ∀ word ∈ telltales, word.toList ∉ words code.toList

instance (code : String) : Decidable (Neutral code) :=
  inferInstanceAs (Decidable (∀ word ∈ telltales, word.toList ∉ words code.toList))

/-- A neutral text that no word of the next one goes on with. -/
def Separate (code : String) : Prop :=
  Neutral code ∧ (code.toList.getLast?.any (!isIdentifierPart ·)) = true

instance (code : String) : Decidable (Separate code) :=
  inferInstanceAs (Decidable (_ ∧ _))

theorem separate_of_chars {texts : List String} {chars : List (List Char)}
    (h : List.Forall₂ (fun s cs => s = String.ofList cs) texts chars)
    (hchars : ∀ cs ∈ chars, (∀ word ∈ telltales, word.toList ∉ words cs) ∧
      cs.getLast?.any (!isIdentifierPart ·) = true) : ∀ s ∈ texts, Separate s :=
  forall_mem_of_chars h hchars

theorem Neutral.separate_line {line : String} (h : Neutral line) : Separate (line ++ "\n") := by
  have htext : (line ++ "\n").toList = line.toList ++ '\n' :: [] := String.toList_append
  refine ⟨fun word hword hmem => ?_, ?_⟩
  · have hends : ∀ word ∈ telltales, word.toList ∉ words [] := by decide
    rw [htext, words_append (by decide), List.mem_append] at hmem
    exact hmem.elim (h word hword) (hends word hword)
  · rw [htext, List.getLast?_concat]
    rfl

/-- Texts at levels, one behind the other. -/
def layout (texts : List (Int × String)) : String :=
  String.join (texts.map fun t => indent t.1 ++ t.2)

theorem layout_cons (level : Int) (s : String) (texts : List (Int × String)) :
    layout ((level, s) :: texts) = indent level ++ s ++ layout texts := by
  simp [layout]

theorem toList_layout_cons (level : Int) (s : String) (texts : List (Int × String)) :
    (layout ((level, s) :: texts)).toList =
      (indent level).toList ++ (s.toList ++ (layout texts).toList) := by
  simp [layout_cons]

theorem neutral_layout {texts : List (Int × String)} (h : ∀ t ∈ texts, Separate t.2) :
    Neutral (layout texts) := by
  induction texts with
  | nil => decide
  | cons t texts ih =>
    obtain ⟨level, s⟩ := t
    obtain ⟨⟨hneutral, hend⟩, hrest⟩ := List.forall_mem_cons.1 h
    obtain ⟨c, hlast, hc⟩ : ∃ c, s.toList.getLast? = some c ∧ isIdentifierPart c = false := by
      simpa [Option.any_eq_true] using hend
    obtain ⟨body, hbody⟩ := List.getLast?_eq_some_iff.1 hlast
    intro word hword hmem
    have hnames : ∀ w ∈ telltales, w.toList ≠ [] := by decide
    rw [toList_layout_cons, hbody, List.append_assoc, List.singleton_append, ← List.append_assoc,
      words_append hc, List.mem_append, indent, String.toList_ofList] at hmem
    rcases hmem with hmem | hmem
    · refine hneutral word hword ?_
      rw [hbody, words_append hc]
      exact List.mem_append_left _ (mem_words_spaces (hnames word hword) hmem)
    · exact ih hrest word hword hmem

theorem layout_nil : layout [] = "" := rfl

theorem layout_append (texts more : List (Int × String)) :
    layout (texts ++ more) = layout texts ++ layout more := by
  simp [layout]

theorem toList_indentBlock_ofLines (level : Int) {ls : List String}
    (h : ∀ line ∈ ls, line.toList.all (!isLineBreak ·) = true) :
    (indentBlock (Scaffold.ofLines ls) level).toList =
      ls.flatMap fun line => indentLine level (line.toList ++ ['\n']) := by
  rw [indentBlock, String.toList_ofList]
  induction ls with
  | nil => rfl
  | cons line ls ih =>
    obtain ⟨hplain, hrest⟩ := List.forall_mem_cons.1 h
    have htext : (Scaffold.ofLines (line :: ls)).toList =
        line.toList ++ '\n' :: (Scaffold.ofLines ls).toList := by
      simp [Scaffold.ofLines_cons]
    rw [htext, lines_append_of_not_break (not_break_of_all hplain) (by simp), lines_feed, glue,
      List.flatMap_cons, ih hrest, List.flatMap_cons]

/-- Lines with something on them are all indented. -/
theorem indentBlock_ofLines (level : Int) {ls : List String}
    (h : ∀ line ∈ ls, line.toList.all (!isLineBreak ·) = true ∧
      line.toList.any (!isBlank ·) = true) :
    indentBlock (Scaffold.ofLines ls) level =
      layout (ls.map fun line => (level, line ++ "\n")) := by
  apply String.toList_injective
  rw [toList_indentBlock_ofLines level fun line hline => (h line hline).1]
  induction ls with
  | nil => rfl
  | cons line ls ih =>
    obtain ⟨⟨-, hwritten⟩, hrest⟩ := List.forall_mem_cons.1 h
    have hindent := indentLine_append line.toList
      (by simpa [List.any_eq_true] using hwritten) level ['\n']
    rw [List.flatMap_cons, ih hrest, hindent, List.map_cons, toList_layout_cons,
      String.toList_append]
    simp

/-! ## Arguments -/

section Arguments

variable (reg : Registry) (e : Endpoint)

theorem arguments_names_sublist :
    ((Signature.arguments reg e).map (·.name)).Sublist ["params", "query", "body"] := by
  unfold Signature.arguments
  rcases e.requestBody with _ | body <;> split_ifs <;> simp

/-- An argument that may be left out has no argument behind it that is needed. -/
theorem arguments_pairwise : (Signature.arguments reg e).Pairwise fun a b =>
    a.presence = .optional → b.presence ≠ .required := by
  have hquery : Signature.queryPresence e = .optional → Signature.needsBody e = false := by
    unfold Signature.queryPresence
    split_ifs <;> simp_all
  unfold Signature.arguments
  rcases hbody : e.requestBody with _ | body
  · split_ifs <;> simp
  · have hneeds : Signature.needsBody e = body.required := by
      rw [Signature.needsBody, hbody]
    rw [hneeds] at hquery
    split_ifs <;> simp_all

/-- The declaration of a path parameter in the type of the path object. -/
def pathDeclaration (p : Parameter) : String :=
  propertyKey p.name ++ ": " ++ Signature.parameterType reg p

/-- The declaration of a query parameter in the type of the query object. -/
def queryDeclaration (p : Parameter) : String :=
  propertyKey p.name ++ (if p.required then "" else "?") ++ ": " ++ Signature.parameterType reg p

end Arguments

/-- An argument of this name is an object with these declarations of properties. -/
def HasObject (args : List Argument) (name : String) (declarations : List String) : Prop :=
  ∃ a ∈ args, a.name = name ∧ a.type = Signature.inlineObject declarations

/-- The declaration begins with a key that denotes the property, and goes on with its type. -/
def Declares (declaration : String) (property : List Nat) : Prop :=
  ∃ rest, key? declaration.toList = some (property, rest) ∧
    ((skip rest).head? = some ':' ∨ (skip rest).head? = some '?')

variable {reg : Registry} {e : Endpoint} {p : Parameter} {property : List Nat} {level : Int}

theorem hasObject_params (h : e.pathParameters ≠ []) :
    HasObject (Signature.arguments reg e) "params"
      (e.pathParameters.map (pathDeclaration reg)) := by
  refine ⟨⟨"params", .required, Signature.pathType reg e.pathParameters⟩, ?_, rfl, rfl⟩
  simp [Signature.arguments, h]

theorem hasObject_query (h : e.queryParameters ≠ []) :
    HasObject (Signature.arguments reg e) "query"
      (e.queryParameters.map (queryDeclaration reg)) := by
  refine ⟨⟨"query", Signature.queryPresence e, Signature.queryType reg e.queryParameters⟩, ?_,
    rfl, rfl⟩
  simp [Signature.arguments, h]

theorem declares_of_keyOf (h : Url.KeyOf s property) {c : Char} (hends : ends [c] = true)
    (hspace : isSpace c = false) (hc : c = ':' ∨ c = '?') (more : String) :
    Declares (propertyKey s ++ String.singleton c ++ more) property := by
  obtain ⟨gap, hgap, hkey⟩ := h
  refine ⟨gap ++ c :: more.toList, ?_, ?_⟩
  · simpa using hkey (c :: more.toList) hends
  · rw [skip_append hgap, skip_cons hspace]
    simpa using hc

theorem declares_pathDeclaration (h : Url.KeyOf p.name property) :
    Declares (pathDeclaration reg p) property := by
  have heq : pathDeclaration reg p =
      propertyKey p.name ++ String.singleton ':' ++ (" " ++ Signature.parameterType reg p) := by
    apply String.toList_injective
    simp [pathDeclaration]
  rw [heq]
  exact declares_of_keyOf h rfl rfl (.inl rfl) _

theorem declares_queryDeclaration (h : Url.KeyOf p.name property) :
    Declares (queryDeclaration reg p) property := by
  unfold queryDeclaration
  split
  · have heq : propertyKey p.name ++ "" ++ ": " ++ Signature.parameterType reg p =
        propertyKey p.name ++ String.singleton ':' ++
          (" " ++ Signature.parameterType reg p) := by
      apply String.toList_injective
      simp
    rw [heq]
    exact declares_of_keyOf h rfl rfl (.inl rfl) _
  · have heq : propertyKey p.name ++ "?" ++ ": " ++ Signature.parameterType reg p =
        propertyKey p.name ++ String.singleton '?' ++
          (": " ++ Signature.parameterType reg p) := by
      apply String.toList_injective
      simp
    rw [heq]
    exact declares_of_keyOf h rfl rfl (.inr rfl) _

/-! ## What a body reads -/

/-- The line sets a query parameter, if it is given, to a property that the declaration declares. -/
def SetsDeclared (level : Int) (p : Parameter) (declaration line : String) : Prop :=
  ∃ access property,
    line = indent level ++ "if (" ++ access ++ " !== undefined) searchParams.set(" ++
      singleQuoted p.name ++ ", String(" ++ access ++ "));\n" ∧
    expression? access.toList = some (.member (.name "query") property, []) ∧
    Declares declaration property

/-- The code is nothing without query parameters. With some it sets them one by one, where the
object with their values is given. -/
inductive Guards (reg : Registry) (ps : List Parameter) (args : List Argument) (level : Int) :
    String → Prop
  | none : ps = [] → "query" ∉ args.map (·.name) → Guards reg ps args level ""
  | some {sets : List String} : HasObject args "query" (ps.map (queryDeclaration reg)) →
    ps.Forall₂ (fun p set => SetsDeclared (level + 1) p (queryDeclaration reg p) set) sets →
    Guards reg ps args level (indent level ++ "if (query) \x7b\n" ++ String.join sets ++
      indent level ++ "\x7d\n")

/-- The code is nothing without an argument for the request body. With one it sends the body, and
only if it is given. -/
inductive SendsBody (args : List Argument) (level : Int) : String → Prop
  | none : "body" ∉ args.map (·.name) → SendsBody args level ""
  | required {type : String} : ⟨"body", .required, type⟩ ∈ args →
    SendsBody args level (indent level ++ "body: JSON.stringify(body),\n")
  | optional {type : String} : ⟨"body", .optional, type⟩ ∈ args → SendsBody args level
    (indent level ++ "body: body !== undefined ? JSON.stringify(body) : undefined,\n")

/-- The code sets the address to a template, which reads the base address and properties of the
path object only, each of them declared. -/
def ReadsPath (args : List Argument) (level : Int) (code : String) : Prop :=
  ∃ literal, code = indent level ++ "const url = " ++ literal ++ ";\n" ∧
    ∀ rest, ∃ symbols, template? (literal.toList ++ rest) = some (symbols, rest) ∧
      ∀ v, .value v ∈ symbols → v = Url.baseUrl ∨
        ∃ declarations, HasObject args "params" declarations ∧ ∃ declaration ∈ declarations,
          ∃ property, Declares declaration property ∧ v = Url.encodedProperty property

theorem setsDeclared_setQuery (reg : Registry) (level : Int) (p : Parameter) :
    SetsDeclared level p (queryDeclaration reg p) (Request.setQuery level p) := by
  have htarget : isTypeName "query" = true := by decide
  obtain ⟨property, gap, hgap, hkey, haccess⟩ := exists_property htarget p.name
  exact ⟨_, property, rfl, haccess, declares_queryDeclaration ⟨gap, hgap, hkey⟩⟩

/-- The lines that set query parameters. -/
def guardedQuery (ps : List Parameter) (level : Int) : String :=
  if ps.isEmpty then ""
  else
    indent level ++ "if (query) \x7b\n" ++
      String.join (ps.map (Request.setQuery (level + 1))) ++ indent level ++ "\x7d\n"

theorem guards_guardedQuery (reg : Registry) (e : Endpoint) (level : Int) :
    Guards reg e.queryParameters (Signature.arguments reg e) level
      (guardedQuery e.queryParameters level) := by
  unfold guardedQuery
  split
  · rename_i hempty
    rw [List.isEmpty_iff] at hempty
    rw [hempty]
    refine .none rfl ?_
    unfold Signature.arguments
    rcases e.requestBody with _ | body <;> split_ifs <;> simp_all
  · rename_i hne
    refine .some (hasObject_query (by simpa using hne)) ?_
    rw [List.forall₂_map_right_iff, List.forall₂_same]
    exact fun p _ => setsDeclared_setQuery reg (level + 1) p

theorem sendsBody_bodyOption (reg : Registry) (e : Endpoint) (level : Int) :
    SendsBody (Signature.arguments reg e) level (Request.bodyOption e.requestBody level) := by
  unfold Request.bodyOption
  rcases hbody : e.requestBody with _ | body
  · refine .none ?_
    unfold Signature.arguments
    rw [hbody]
    split_ifs <;> simp
  · have hmem : ⟨"body", if body.required then .required else .optional,
        Signature.contentType reg body.content⟩ ∈ Signature.arguments reg e := by
      simp [Signature.arguments, hbody]
    dsimp only
    split
    · rename_i hrequired
      rw [if_pos hrequired] at hmem
      exact .required hmem
    · rename_i hrequired
      rw [if_neg hrequired] at hmem
      exact .optional hmem

theorem readsPath_statement (reg : Registry) (e : Endpoint) (level : Int)
    (h : Url.Unescaped (Url.written (e.pathParameters.map (·.name)) e.path)) :
    ReadsPath (Signature.arguments reg e) level
      (Url.statement (e.pathParameters.map (·.name)) e.path level) := by
  refine ⟨_, Url.statement_eq _ _ level, fun rest => ?_⟩
  obtain ⟨symbols, hread, hvalues⟩ := Url.exists_template h rest
  refine ⟨symbols, hread, fun v hv => (hvalues v hv).imp_right ?_⟩
  rintro ⟨name, hname, property, hkey, rfl⟩
  obtain ⟨p, hp, rfl⟩ := List.mem_map.1 hname
  exact ⟨_, hasObject_params (List.ne_nil_of_mem hp), _, List.mem_map_of_mem hp, property,
    declares_pathDeclaration hkey, rfl⟩

/-! ## The texts between -/

/-- What stands before the lines that set query parameters. -/
def beforeQuery (ps : List Parameter) (level : Int) : String :=
  if ps.isEmpty then layout [(level, "const finalUrl = url;\n\n")]
  else layout [(level, "const searchParams = new URLSearchParams();\n")]

/-- What stands between them and the line that sets the request body. -/
def beforeBody (e : Endpoint) (level : Int) : String :=
  layout ((if e.queryParameters.isEmpty then [] else
      [(level, "const queryString = searchParams.toString();\n"), (level,
        "const finalUrl = queryString ? `$\x7burl\x7d?$\x7bqueryString\x7d` : url;\n\n")]) ++
    [(level, "const options: RequestInit = \x7b\n"),
      (level + 1, "method: '" ++ e.verb.upper ++ "',\n")])

/-- What stands between that line and the type of the response. -/
def beforeResponse (level : Int) : String :=
  layout [(level, "\x7d;\n\n"), (level, "try \x7b\n"), (level, fetchOpening)]

/-- What stands behind the type of the response in a method at a level. -/
def afterResponse (level : Int) : String :=
  layout ((0, ">(finalUrl, options);\n") ::
    (Scaffold.requestClosing.map fun line => (level + 1, line ++ "\n")) ++ [(level, "\x7d\n\n")])

theorem neutral_beforeQuery (ps : List Parameter) (level : Int) :
    Neutral (beforeQuery ps level) := by
  have htexts : ∀ s ∈ ["const finalUrl = url;\n\n",
      "const searchParams = new URLSearchParams();\n"], Separate s :=
    separate_of_chars (by repeat constructor) (by decide +kernel)
  unfold beforeQuery
  split
  · exact neutral_layout (by simpa using htexts _ (.head _))
  · exact neutral_layout (by simpa using htexts _ (.tail _ (.head _)))

theorem neutral_beforeBody (e : Endpoint) (level : Int) : Neutral (beforeBody e level) := by
  have htexts : ∀ s ∈ ["const queryString = searchParams.toString();\n",
      "const finalUrl = queryString ? `$\x7burl\x7d?$\x7bqueryString\x7d` : url;\n\n",
      "const options: RequestInit = \x7b\n"], Separate s :=
    separate_of_chars (by repeat constructor) (by decide +kernel)
  have hverb : ∀ v : Verb, Separate ("method: '" ++ v.upper ++ "',\n") := by
    rintro (_ | _ | _ | _ | _) <;> decide +kernel
  refine neutral_layout fun t ht => ?_
  split_ifs at ht <;> simp only [List.nil_append, List.cons_append, List.mem_cons,
    List.not_mem_nil, or_false] at ht
  · rcases ht with rfl | rfl
    · exact htexts _ (by simp)
    · exact hverb e.verb
  · rcases ht with rfl | rfl | rfl | rfl
    · exact htexts _ (by simp)
    · exact htexts _ (by simp)
    · exact htexts _ (by simp)
    · exact hverb e.verb

theorem neutral_beforeResponse (level : Int) : Neutral (beforeResponse level) := by
  have htexts : ∀ s ∈ ["\x7d;\n\n", "try \x7b\n", fetchOpening], Separate s :=
    separate_of_chars (by repeat constructor) (by decide +kernel)
  exact neutral_layout (by simpa using htexts)

theorem neutral_requestClosing : ∀ line ∈ Scaffold.requestClosing, Neutral line :=
  forall_mem_of_chars (P := fun cs => ∀ word ∈ telltales, word.toList ∉ words cs)
    (by repeat constructor) (by decide +kernel)

theorem neutral_afterResponse (level : Int) : Neutral (afterResponse level) := by
  have hends : ∀ s ∈ [">(finalUrl, options);\n", "\x7d\n\n"], Separate s :=
    separate_of_chars (by repeat constructor) (by decide +kernel)
  refine neutral_layout fun t ht => ?_
  simp only [List.cons_append, List.mem_cons, List.mem_append, List.mem_map, List.not_mem_nil,
    or_false] at ht
  rcases ht with rfl | ⟨line, hline, rfl⟩ | rfl
  · exact hends _ (by simp)
  · exact (neutral_requestClosing line hline).separate_line
  · exact hends _ (by simp)

theorem query_append_options (e : Endpoint) (level : Int) :
    Request.query e.queryParameters level ++ Request.options e level =
      beforeQuery e.queryParameters level ++ guardedQuery e.queryParameters level ++
        beforeBody e level ++ Request.bodyOption e.requestBody (level + 1) ++
        (indent level ++ "\x7d;\n\n") := by
  unfold Request.query Request.options beforeQuery guardedQuery beforeBody
  split_ifs <;> simp [layout, String.append_assoc]

theorem requestClosing_spec : ∀ line ∈ Scaffold.requestClosing,
    line.toList.all (!isLineBreak ·) = true ∧ line.toList.any (!isBlank ·) = true :=
  forall_mem_of_chars
    (P := fun cs => cs.all (!isLineBreak ·) = true ∧ cs.any (!isBlank ·) = true)
    (by repeat constructor) (by decide +kernel)

theorem request_eq (response : String) (level : Int) :
    indent (level + 1) ++ "\x7d;\n\n" ++ indentBlock (Request.wrapped response) (level + 1) ++
        indent level ++ "\x7d\n\n" =
      beforeResponse (level + 1) ++ fetched response (level + 1) ++ afterResponse level := by
  have hclosing := indentBlock_ofLines (level + 1) requestClosing_spec
  rw [indentBlock_wrapped, hclosing]
  simp only [beforeResponse, afterResponse, fetchOpening, List.cons_append, layout_cons,
    layout_append, layout_nil, indent_zero, String.append_assoc, String.append_empty,
    String.empty_append]

/-- The arguments of a method come in a fixed order, and none that may be left out stands before one
that is needed. The query object is read in the lines that set query parameters, one for each and
where the object is given, the body in the line that sends it, and the path object in the address,
unless its path has an escape or a substitution of its own. Nothing else in the body mentions an
argument, apart from the type of the response. -/
theorem uses_declared (reg : Registry) (e : Endpoint) (error : Option String) (level : Int) :
    let args := Signature.arguments reg e
    let names := e.pathParameters.map (·.name)
    let response := Signature.responseType reg e.responses
    (args.map (·.name)).Sublist ["params", "query", "body"] ∧
    (args.Pairwise fun a b => a.presence = .optional → b.presence ≠ .required) ∧
    ∃ beforeQuery guarded beforeBody sent beforeResponse afterResponse,
      code reg e error level =
        Signature.opening (Name.method e.operationId) args (Signature.resultType response error)
            level ++
          Url.statement names e.path (level + 1) ++ beforeQuery ++ guarded ++ beforeBody ++ sent ++
          beforeResponse ++ fetched response (level + 1) ++ afterResponse ∧
      Neutral beforeQuery ∧ Neutral beforeBody ∧ Neutral beforeResponse ∧ Neutral afterResponse ∧
      Guards reg e.queryParameters args (level + 1) guarded ∧
      SendsBody args (level + 2) sent ∧
      (Url.Unescaped (Url.written names e.path) →
        ReadsPath args (level + 1) (Url.statement names e.path (level + 1))) := by
  refine ⟨arguments_names_sublist reg e, arguments_pairwise reg e,
    beforeQuery e.queryParameters (level + 1), guardedQuery e.queryParameters (level + 1),
    beforeBody e (level + 1), Request.bodyOption e.requestBody (level + 2),
    beforeResponse (level + 1), afterResponse level, ?_, neutral_beforeQuery _ _,
    neutral_beforeBody _ _, neutral_beforeResponse _, neutral_afterResponse _,
    guards_guardedQuery reg e (level + 1), sendsBody_bodyOption reg e _,
    readsPath_statement reg e _⟩
  have hlevel : level + 1 + 1 = level + 2 := by omega
  have hquery := query_append_options e (level + 1)
  have hrequest := request_eq (Signature.responseType reg e.responses) level
  rw [hlevel] at hquery
  rw [code, Request.text, hquery]
  simp only [String.append_assoc] at hrequest ⊢
  rw [hrequest]

/-- The operation that gets one pet. -/
def onePet : Endpoint where
  verb := .get
  path := "/pets/\x7bpetId\x7d"
  operationId := "getPet"
  summary := none
  description := none
  parameters := [⟨"petId", .path, true, none, none⟩]
  requestBody := none
  responses := []
  tags := none

/-- The path of a pet has nothing to escape, so its address reads the path object of the method. -/
theorem uses_declared_onePet : Url.Unescaped (Url.written ["petId"] "/pets/\x7bpetId\x7d") ∧
    ReadsPath (Signature.arguments .empty onePet) 2
      (Url.statement ["petId"] "/pets/\x7bpetId\x7d" 2) := by
  have hunescaped : Url.Unescaped (Url.written ["petId"] "/pets/\x7bpetId\x7d") :=
    ⟨by decide +kernel, by decide +kernel⟩
  obtain ⟨-, -, -, -, -, -, -, -, -, -, -, -, -, -, -, hreads⟩ := uses_declared .empty onePet none 1
  exact ⟨hunescaped, hreads hunescaped⟩

/-- An operation without parameters. -/
def withoutParameters (path : String) : Endpoint where
  verb := .get
  path := path
  operationId := "listPets"
  summary := none
  description := none
  parameters := []
  requestBody := none
  responses := []
  tags := none

/-- A dollar sign before a brace in the path makes a substitution: the address reads a property of
a path object, and the method has no argument at all. -/
theorem not_uses_declared :
    Signature.arguments .empty (withoutParameters "/a/$\x7bparams.x\x7d") = [] ∧
    template? (Url.literal [] "/a/$\x7bparams.x\x7d").toList =
      some (.value Url.baseUrl :: (units "/a/".toList).map .unit ++
        [.value (.member (.name "params") (units "x".toList))], []) ∧
    ¬ ReadsPath [] 2 (Url.statement [] "/a/$\x7bparams.x\x7d" 2) := by
  have hread : template? (Url.literal [] "/a/$\x7bparams.x\x7d").toList =
      some (.value Url.baseUrl :: (units "/a/".toList).map .unit ++
        [.value (.member (.name "params") (units "x".toList))], []) := by decide +kernel
  refine ⟨rfl, hread, ?_⟩
  rintro ⟨literal, hcode, hvalues⟩
  have hliteral : Url.literal [] "/a/$\x7bparams.x\x7d" = literal := by
    rw [Url.statement_eq] at hcode
    simpa using hcode
  obtain ⟨symbols, hsymbols, hdeclared⟩ := hvalues []
  rw [← hliteral, List.append_nil, hread, Option.some.injEq, Prod.mk.injEq] at hsymbols
  have hmem : .value (.member (.name "params") (units "x".toList)) ∈ symbols := by
    rw [← hsymbols.1]
    simp
  rcases hdeclared _ hmem with hbase | ⟨declarations, ⟨a, ha, -⟩, -⟩
  · exact absurd hbase (by decide)
  · cases ha

end TypedClient.Method
