import TypedClient.Client.Method
import TypedClient.Proofs.Methods.Lines
import TypedClient.Proofs.TypeText.Token

/-!
# The type of a response in a method

A method names the type of its response twice: in the type of its result, and in the request, which
is indented as a block. Indentation pads lines, and every line break of the language of the document
ends a line, also one inside a literal. So the two texts are the same up to padding behind line
feeds exactly if no other break stands before a line that is shifted (`fetched_padded_iff`). Then
they have the same tokens (`Padded.tokens?_eq`).
-/

namespace TypedClient.Text

variable {pad a b cs line next : List Char} {c : Char} {level : Int}

/-! ## Padding -/

/-- The second text is the first one with padding behind some of its line feeds. -/
inductive Padded (pad : List Char) : List Char → List Char → Prop
  | nil : Padded pad [] []
  | char (c : Char) {a b : List Char} : Padded pad a b → Padded pad (c :: a) (c :: b)
  | feed {a b : List Char} : Padded pad a b → Padded pad ('\n' :: a) ('\n' :: (pad ++ b))

theorem Padded.refl (pad : List Char) : ∀ a : List Char, Padded pad a a
  | [] => .nil
  | c :: a => .char c (refl pad a)

theorem padded_cons_iff (hc : c ≠ '\n') : Padded pad (c :: a) (c :: b) ↔ Padded pad a b := by
  refine ⟨fun h => ?_, .char c⟩
  cases h with
  | char _ h => exact h
  | feed => exact absurd rfl hc

theorem padded_append_iff (h : '\n' ∉ cs) : Padded pad (cs ++ a) (cs ++ b) ↔ Padded pad a b := by
  induction cs with
  | nil => rfl
  | cons c cs ih =>
    rw [List.mem_cons, not_or] at h
    rw [List.cons_append, List.cons_append, padded_cons_iff (Ne.symm h.1), ih h.2]

theorem padded_feed_iff : Padded pad ('\n' :: a) ('\n' :: b) ↔
    Padded pad a b ∨ ∃ b', b = pad ++ b' ∧ Padded pad a b' := by
  constructor
  · intro h
    cases h with
    | char _ h => exact .inl h
    | feed h => exact .inr ⟨_, rfl, h⟩
  · rintro (h | ⟨b', rfl, h⟩)
    · exact .char '\n' h
    · exact .feed h

theorem Padded.exists_of_append (h : Padded pad (a ++ [c]) b) (hc : c ≠ '\n') :
    ∃ b', b = b' ++ [c] ∧ Padded pad a b' := by
  induction a generalizing b with
  | nil =>
    cases h with
    | char _ h => cases h; exact ⟨[], rfl, .nil⟩
    | feed => exact absurd rfl hc
  | cons d a ih =>
    cases h with
    | char _ h =>
      obtain ⟨b', rfl, hb⟩ := ih h
      exact ⟨d :: b', rfl, .char d hb⟩
    | feed h =>
      obtain ⟨b', rfl, hb⟩ := ih h
      exact ⟨'\n' :: (pad ++ b'), by simp, .feed hb⟩

theorem Padded.append (h : Padded pad a b) (cs : List Char) : Padded pad (a ++ cs) (b ++ cs) := by
  induction h with
  | nil => exact .refl pad cs
  | char c _ ih => exact .char c ih
  | feed _ ih =>
    rw [List.cons_append, List.cons_append, List.append_assoc]
    exact .feed ih

theorem padded_append_singleton_iff (hc : c ≠ '\n') :
    Padded pad (a ++ [c]) (b ++ [c]) ↔ Padded pad a b := by
  refine ⟨fun h => ?_, fun h => h.append [c]⟩
  obtain ⟨b', heq, hb⟩ := h.exists_of_append hc
  rwa [List.append_cancel_right heq]

/-- The number of spaces that a text begins with. -/
def margin (cs : List Char) : Nat :=
  (cs.takeWhile (· = ' ')).length

/-- Padding stands behind a line feed only, so never at the beginning. -/
theorem Padded.margin_eq (h : Padded pad a b) : margin a = margin b := by
  induction h with
  | nil => rfl
  | char c _ ih =>
    unfold margin at ih ⊢
    by_cases hc : c = ' ' <;> simp [hc, ih]
  | feed => simp [margin]

theorem margin_indent_append (level : Int) (cs : List Char) :
    margin ((indent level).toList ++ cs) = (indent level).toList.length + margin cs := by
  have hspaces : ∀ c ∈ (indent level).toList, decide (c = ' ') = true :=
    fun c hc => decide_eq_true (eq_space_of_mem_indent hc)
  rw [margin, margin, List.takeWhile_append_of_pos hspaces, List.length_append]

/-! ## Shifted lines -/

/-- A line of more than spaces, in which a line feed can only be the last character. -/
def Solid (line : List Char) : Prop :=
  ∃ body c, line = body ++ [c] ∧ c ≠ ' ' ∧ '\n' ∉ body

theorem Complete.solid (h : Complete line) : Solid line := by
  obtain ⟨body, c, rfl, hc, hbody⟩ := h
  refine ⟨body, c, rfl, ?_, hbody⟩
  rintro rfl
  simp [isLineBreak] at hc

theorem Solid.margin_append (h : Solid line) (cs : List Char) :
    margin (line ++ cs) = margin line := by
  obtain ⟨body, c, rfl, hc, -⟩ := h
  unfold margin
  congr 1
  simp [List.takeWhile_append, hc]

/-- The line stays where it is when it is shifted, or it stands behind a line feed. -/
def Fed (line next : List Char) : Prop :=
  line.getLast? = some '\n' ∨ next.all isBlank = true

/-- Where a line ends, padding comes next exactly if the line ends in a line feed. -/
theorem padded_line_iff (hlevel : 0 < level) (hnext : Solid next) (cs : List Char) :
    Padded (indent level).toList (c :: (next ++ a)) (c :: (indentLine level next ++ b)) ↔
      Fed (cs ++ [c]) next ∧ Padded (indent level).toList (next ++ a) (next ++ b) := by
  have hpad : 0 < (indent level).toList.length := by
    simp [indent]
    omega
  have hfed : Fed (cs ++ [c]) next ↔ c = '\n' ∨ next.all isBlank = true := by simp [Fed]
  rw [hfed]
  unfold indentLine
  -- a text and a shifted one do not begin with the same number of spaces
  by_cases hblank : next.all isBlank = true
  · rw [if_pos hblank]
    have hshifted (b' : List Char) (heq : next ++ b = (indent level).toList ++ b') :
        ¬ Padded (indent level).toList (next ++ a) b' := by
      intro h
      have hmargin := h.margin_eq
      have hsame := congrArg margin heq
      rw [hnext.margin_append] at hmargin hsame
      rw [margin_indent_append] at hsame
      omega
    by_cases hc : c = '\n'
    · rw [hc, padded_feed_iff]
      grind
    · rw [padded_cons_iff hc]
      simp [hblank]
  · rw [if_neg hblank, List.append_assoc]
    have hshifted : ¬ Padded (indent level).toList (next ++ a)
        ((indent level).toList ++ (next ++ b)) := by
      intro h
      have hmargin := h.margin_eq
      rw [hnext.margin_append, margin_indent_append, hnext.margin_append] at hmargin
      omega
    by_cases hc : c = '\n'
    · rw [hc, padded_feed_iff]
      simp [hshifted]
    · rw [padded_cons_iff hc]
      simp [hshifted, hc, hblank]

/-- Shifted lines are padded behind line feeds exactly if nothing else ends the lines before
them. -/
theorem padded_shifted_iff (hlevel : 0 < level) {more : List (List Char)}
    (h : ∀ l ∈ line :: more, Solid l) :
    Padded (indent level).toList (line ++ more.flatten)
      (line ++ more.flatMap (indentLine level)) ↔ (line :: more).IsChain Fed := by
  induction more generalizing line with
  | nil => simp [Padded.refl]
  | cons next more ih =>
    obtain ⟨⟨body, c, rfl, -, hbody⟩, hrest⟩ := List.forall_mem_cons.1 h
    have hnext : Solid next := hrest next List.mem_cons_self
    rw [List.flatten_cons, List.flatMap_cons, List.append_assoc, List.append_assoc,
      padded_append_iff hbody, List.singleton_append, List.singleton_append,
      padded_line_iff hlevel hnext body, ih hrest, List.isChain_cons_cons]

theorem indentLine_append (cs : List Char) (h : ∃ c ∈ cs, isBlank c = false) (level : Int)
    (rest : List Char) : indentLine level (cs ++ rest) = (indent level).toList ++ (cs ++ rest) := by
  obtain ⟨c, hc, hblank⟩ := h
  refine if_neg fun hall => ?_
  rw [List.all_eq_true] at hall
  rw [hall c (List.mem_append_left _ hc)] at hblank
  cases hblank

/-- The lines of a text, all but the first at a deeper level. -/
def shifted (level : Int) (cs : List Char) : List Char :=
  match lines cs with
  | [] => []
  | line :: more => line ++ more.flatMap (indentLine level)

/-- Every line that has more than white space is the first one or stands behind a line feed. -/
def BreaksAtFeeds (cs : List Char) : Prop :=
  (lines cs).IsChain Fed

theorem lines_append_singleton {d : Char} (hd : isLineBreak d = false) {init : List (List Char)}
    (h : Begins cs init body) : lines (cs ++ [d]) = init ++ [body ++ [d]] := by
  have hline : lines [d] = [[d]] := by
    simp [lines, hd]
  have hparted : Parted cs [d] := by
    rintro - heq
    cases heq
    exact absurd hd (by decide)
  rw [h.2.2 _ (by simp) hparted, hline]
  rfl

theorem solid_of_mem_lines {d : Char} (hd : isBlank d = false) (hbreak : isLineBreak d = false)
    (h : line ∈ lines (cs ++ [d])) : Solid line := by
  obtain ⟨init, body, hbegins⟩ := exists_begins cs
  rw [lines_append_singleton hbreak hbegins, List.mem_append, List.mem_singleton] at h
  rcases h with h | rfl
  · exact (hbegins.1 line h).solid
  · refine ⟨body, d, rfl, ?_, fun hfeed => ?_⟩
    · rintro rfl
      cases hd
    · exact absurd (hbegins.2.1 _ hfeed) (by decide)

/-- Lines of a text are padded behind line feeds exactly if they are not shifted at all, or every
line that is shifted stands behind a line feed. -/
theorem padded_shifted_text_iff {d : Char} (hd : isBlank d = false)
    (hbreak : isLineBreak d = false) (level : Int) (cs : List Char) :
    Padded (indent level).toList (cs ++ [d]) (shifted level (cs ++ [d])) ↔
      level ≤ 0 ∨ BreaksAtFeeds (cs ++ [d]) := by
  have hsolid (line : List Char) (h : line ∈ lines (cs ++ [d])) := solid_of_mem_lines hd hbreak h
  have hflat := flatten_lines (cs ++ [d])
  unfold shifted BreaksAtFeeds
  rcases hlines : lines (cs ++ [d]) with _ | ⟨line, more⟩
  · exact absurd hlines (lines_ne_nil (by simp))
  rw [hlines] at hsolid hflat
  rw [← hflat, List.flatten_cons]
  by_cases hlevel : level ≤ 0
  · have hsame : more.flatMap (indentLine level) = more.flatten := by
      rw [funext (indentLine_of_nonpos hlevel), List.flatMap_id']
    simp [hlevel, hsame, Padded.refl]
  · have hpos : 0 < level := by omega
    rw [padded_shifted_iff hpos hsolid]
    simp [hlevel]

/-- What stands on one line with the end of a text is shifted with its line. -/
theorem flatMap_indentLine_lines {opening closing : List Char} {d : Char}
    (hopening : ∀ c ∈ opening, isLineBreak c = false) (hwritten : ∃ c ∈ opening, isBlank c = false)
    (hclosing : ∀ c ∈ d :: closing, isLineBreak c = false) (hd : isBlank d = false)
    (level : Int) (cs rest : List Char) :
    (lines (opening ++ (cs ++ (d :: closing ++ '\n' :: rest)))).flatMap (indentLine level) =
      (indent level).toList ++ (opening ++ (shifted level (cs ++ [d]) ++
        (closing ++ '\n' :: (lines rest).flatMap (indentLine level)))) := by
  have hbreak : isLineBreak d = false := hclosing d List.mem_cons_self
  have hend : lines (d :: closing ++ '\n' :: rest) = (d :: closing ++ ['\n']) :: lines rest := by
    rw [lines_append_of_not_break hclosing (by simp), lines_feed]
    rfl
  obtain ⟨init, body, hbegins⟩ := exists_begins cs
  have hparted : Parted cs (d :: closing ++ '\n' :: rest) := by
    rintro - heq
    cases heq
    exact absurd hbreak (by decide)
  have hlast : indentLine level (body ++ [d]) = (indent level).toList ++ (body ++ [d]) := by
    have := indentLine_append (body ++ [d]) ⟨d, by simp, hd⟩ level []
    simpa using this
  have hlong := indentLine_append (body ++ [d]) ⟨d, by simp, hd⟩ level (closing ++ ['\n'])
  rw [lines_append_of_not_break hopening (by simp), hbegins.2.2 _ (by simp) hparted, hend,
    shifted, lines_append_singleton hbreak hbegins]
  -- the opening stands before the first line, which the end of the text may be on or not
  rcases init with _ | ⟨line, init⟩
  · have hfirst := indentLine_append _ hwritten level (body ++ d :: (closing ++ ['\n']))
    simp only [List.nil_append, glue, List.flatMap_cons, List.flatMap_nil, hfirst,
      List.append_nil, List.append_assoc, List.cons_append]
  · have hfirst := indentLine_append _ hwritten level line
    simp only [List.append_assoc, List.cons_append, List.nil_append] at hlast hlong
    simp only [List.cons_append, glue, List.flatMap_cons, List.flatMap_append, List.flatMap_nil,
      hfirst, hlast, hlong, List.append_nil, List.append_assoc, List.nil_append]

/-! ## Tokens -/

open Lexer in
theorem phase_of_step_feed {s t : State} (h : step s '\n' = some t) : t.phase = .between := by
  have hbegin (found : List Token) : begin? found '\n' = some ⟨found, .between⟩ := rfl
  obtain ⟨found, phase⟩ := s
  rcases phase with _ | cs | cs | cs | ⟨cs, _ | left, value⟩
  · rw [step, hbegin] at h
    exact (Option.some.inj h) ▸ rfl
  · have hname : isNameChar '\n' = false := by decide
    simp only [step, hname, hbegin] at h
    exact (Option.some.inj h) ▸ rfl
  · simp [step] at h
  · simp [step, unescape?] at h
  · have hhex : hexValue? '\n' = none := by decide
    simp [step, hhex] at h
  · have hhex : hexValue? '\n' = none := by decide
    simp [step, hhex] at h

/-- A line feed ends every token, so padding behind it brings nothing. -/
theorem Padded.foldlM_eq {n : Nat} (h : Padded (List.replicate n ' ') a b) :
    ∀ s, b.foldlM Lexer.step s = a.foldlM Lexer.step s := by
  induction h with
  | nil => exact fun _ => rfl
  | char c _ ih => simp [ih]
  | feed _ ih =>
    intro s
    rw [List.foldlM_cons, List.foldlM_cons]
    rcases hstep : Lexer.step s '\n' with _ | ⟨found, phase⟩
    · rfl
    · obtain rfl : phase = .between := phase_of_step_feed hstep
      have hpad := Lexer.closes_spaces n found
      rw [List.append_nil] at hpad
      simp [List.foldlM_append, hpad, ih]

theorem Padded.tokens?_eq {s t : String}
    (h : Padded (indent level).toList s.toList t.toList) :
    Lexer.tokens? t = Lexer.tokens? s := by
  rw [indent, String.toList_ofList] at h
  rw [Lexer.tokens?, Lexer.tokens?, h.foldlM_eq]

end TypedClient.Text

namespace TypedClient.Method

open Text

/-! ## The two places of a method -/

/-- The beginning of the line that makes the request. -/
def fetchOpening : String := "  const data = await this.internalFetch<"

/-- The type of the response as the request writes it. -/
def fetched (response : String) (level : Int) : String :=
  String.ofList (shifted level (response.toList ++ ['>'])).dropLast

theorem shifted_eq (response : String) (level : Int) :
    shifted level (response.toList ++ ['>']) = (fetched response level).toList ++ ['>'] := by
  have hlast : ∃ cs, shifted level (response.toList ++ ['>']) = cs ++ ['>'] := by
    obtain ⟨init, body, hbegins⟩ := exists_begins response.toList
    rw [shifted, lines_append_singleton rfl hbegins]
    rcases init with _ | ⟨line, init⟩
    · exact ⟨body, by simp⟩
    · have hend := indentLine_append (body ++ ['>']) ⟨'>', by simp, rfl⟩ level []
      rw [List.append_nil] at hend
      exact ⟨line ++ (init.flatMap (indentLine level) ++ ((indent level).toList ++ body)),
        by simp [hend]⟩
  obtain ⟨cs, hcs⟩ := hlast
  rw [fetched, hcs, String.toList_ofList, List.dropLast_concat]

theorem fetched_padded (response : String) (level : Int) :
    Padded (indent level).toList response.toList (fetched response level).toList ↔
      level ≤ 0 ∨ BreaksAtFeeds (response.toList ++ ['>']) := by
  have htext := padded_shifted_text_iff (d := '>') rfl rfl level response.toList
  rwa [shifted_eq, padded_append_singleton_iff (by decide)] at htext

theorem toList_wrapped (response : String) : (Request.wrapped response).toList =
    "try \x7b".toList ++ '\n' :: (fetchOpening.toList ++ (response.toList ++
      ('>' :: "(finalUrl, options);".toList ++
        '\n' :: (Scaffold.ofLines Scaffold.requestClosing).toList))) := by
  simp [Request.wrapped, Scaffold.ofLines, Scaffold.requestOpening, fetchOpening]

/-- The request, with the type of its response at its level. -/
theorem indentBlock_wrapped (response : String) (level : Int) :
    indentBlock (Request.wrapped response) level =
      indent level ++ "try \x7b\n" ++
        indent level ++ "  const data = await this.internalFetch<" ++ fetched response level ++
          ">(finalUrl, options);\n" ++
        indentBlock (Scaffold.ofLines Scaffold.requestClosing) level := by
  apply String.toList_injective
  have hopening (rest : List Char) : lines ("try \x7b".toList ++ '\n' :: rest) =
      ("try \x7b".toList ++ ['\n']) :: lines rest := by
    rw [lines_append_of_not_break (not_break_of_all (by decide)) (by simp), lines_feed]
    rfl
  have hfirst := indentLine_append "try \x7b".toList ⟨'t', by decide, rfl⟩ level ['\n']
  have hplain : ∀ c ∈ fetchOpening.toList, isLineBreak c = false :=
    not_break_of_all (by decide)
  have hending : ∀ c ∈ '>' :: "(finalUrl, options);".toList, isLineBreak c = false :=
    not_break_of_all (by decide)
  have hrest := flatMap_indentLine_lines hplain ⟨'c', by decide, rfl⟩ hending rfl level
    response.toList (Scaffold.ofLines Scaffold.requestClosing).toList
  rw [indentBlock, String.toList_ofList, toList_wrapped, hopening, List.flatMap_cons, hfirst,
    hrest, shifted_eq]
  simp [indentBlock, fetchOpening]

theorem exists_opening_eq (method : String) (args : List Argument) (result : String)
    (level : Int) : ∃ head, Signature.opening method args result level =
      head ++ "): Promise<" ++ result ++ "> \x7b\n" := by
  unfold Signature.opening
  dsimp only
  split
  · exact ⟨indent level ++ "async " ++ method ++ "(", by simp only [String.append_assoc]⟩
  · exact ⟨_, by simp only [← String.append_assoc]; rfl⟩

theorem breaksAtFeeds_of_forall {cs : List Char}
    (h : ∀ c ∈ cs, isLineBreak c = true → c = '\n') : BreaksAtFeeds (cs ++ ['>']) := by
  obtain ⟨init, body, hbegins⟩ := exists_begins cs
  have hlines := lines_append_singleton (d := '>') rfl hbegins
  have hfed (line : List Char) (hline : line ∈ init) (next : List Char) : Fed line next := by
    obtain ⟨front, c, rfl, hc, -⟩ := hbegins.1 line hline
    have hmem : c ∈ cs ++ ['>'] := by
      rw [← flatten_lines (cs ++ ['>']), hlines]
      exact List.mem_flatten_of_mem (List.mem_append_left _ hline) (by simp)
    rw [List.mem_append, List.mem_singleton] at hmem
    rcases hmem with hmem | rfl
    · exact .inl (by simp [h c hmem hc])
    · exact absurd hc (by decide)
  unfold BreaksAtFeeds
  rw [hlines]
  refine List.Pairwise.isChain (List.pairwise_append.2 ⟨?_, by simp, fun l hl next _ => ?_⟩)
  · exact List.pairwise_iff_getElem.2 fun i j hi _ _ => hfed _ (List.getElem_mem hi) _
  · exact hfed l hl next

/-- In the code of a method stand the type of its response, and as the argument of the request the
same type, padded behind line feeds exactly if it is not indented or every line of it that is
indented stands behind a line feed. Then both texts have the same tokens, literals included. -/
theorem fetched_padded_iff (reg : Registry) (e : Endpoint) (error : Option String) (level : Int) :
    let response := Signature.responseType reg e.responses
    let padding := (indent (level + 1)).toList
    (∃ head, code reg e error level =
      head ++ "): Promise<ApiResult<" ++ response ++ (error.map (", " ++ ·)).getD "" ++
          ">> \x7b\n" ++
        Url.statement (e.pathParameters.map (·.name)) e.path (level + 1) ++
        Request.query e.queryParameters (level + 1) ++
        Request.options e (level + 1) ++
        indent (level + 1) ++ "try \x7b\n" ++
        indent (level + 1) ++ "  const data = await this.internalFetch<" ++
          fetched response (level + 1) ++ ">(finalUrl, options);\n" ++
        indentBlock (Scaffold.ofLines Scaffold.requestClosing) (level + 1) ++
        indent level ++ "\x7d\n\n") ∧
    (Padded padding response.toList (fetched response (level + 1)).toList ↔
      level < 0 ∨ BreaksAtFeeds (response.toList ++ ['>'])) ∧
    ((∀ c ∈ response.toList, isLineBreak c = true → c = '\n') →
      Padded padding response.toList (fetched response (level + 1)).toList) ∧
    (Padded padding response.toList (fetched response (level + 1)).toList →
      Lexer.tokens? (fetched response (level + 1)) = Lexer.tokens? response) := by
  intro response padding
  have hlevel : level + 1 ≤ 0 ↔ level < 0 := by omega
  have hpadded : Padded padding response.toList (fetched response (level + 1)).toList ↔
      level < 0 ∨ BreaksAtFeeds (response.toList ++ ['>']) := by
    rw [fetched_padded, hlevel]
  refine ⟨?_, hpadded, fun h => hpadded.2 (.inr (breaksAtFeeds_of_forall h)), Padded.tokens?_eq⟩
  have hresult : Signature.resultType response error =
      "ApiResult<" ++ response ++ (error.map (", " ++ ·)).getD "" ++ ">" := by
    cases error <;> simp [Signature.resultType, String.append_assoc]
  obtain ⟨head, hopening⟩ := exists_opening_eq (Name.method e.operationId)
    (Signature.arguments reg e) (Signature.resultType response error) level
  refine ⟨head, ?_⟩
  have hbefore : "): Promise<ApiResult<" = "): Promise<" ++ "ApiResult<" := rfl
  have hbehind : ">> \x7b\n" = ">" ++ "> \x7b\n" := rfl
  rw [code, hopening, hresult, Request.text, indentBlock_wrapped, hbefore, hbehind]
  simp only [String.append_assoc, response]

/-- An operation that answers with one text. -/
def oneAnswer (answer : String) : Endpoint where
  verb := .get
  path := "/pets"
  operationId := "listPets"
  summary := none
  description := none
  parameters := []
  requestBody := none
  responses := [("200", ⟨"", [("application/json",
    some (.primitive ⟨.string, some [.text answer], .null, none, none⟩))]⟩)]
  tags := none

/-- A line separator inside a literal ends a line, so the literal of the request gets blanks behind
it: another text. -/
theorem not_fetched_padded :
    Signature.responseType .empty (oneAnswer "a\u2028b").responses = "\"a\u2028b\"" ∧
    fetched "\"a\u2028b\"" 2 = "\"a\u2028    b\"" ∧
    ¬ Padded (indent 2).toList "\"a\u2028b\"".toList (fetched "\"a\u2028b\"" 2).toList ∧
    Lexer.tokens? "\"a\u2028b\"" = some [.text "a\u2028b"] ∧
    Lexer.tokens? (fetched "\"a\u2028b\"" 2) = some [.text "a\u2028    b"] := by
  have hresponse : Signature.responseType .empty (oneAnswer "a\u2028b").responses =
      "\"a\u2028b\"" := by
    have htype : Signature.responseType .empty (oneAnswer "a\u2028b").responses =
      Schema.typeText .empty Registry.empty.names 0
        (.primitive ⟨.string, some [.text "a\u2028b"], .null, none, none⟩) := rfl
    rw [htype, Schema.typeText, TypeExpr.ofSchema]
    decide +kernel
  have htext : fetched "\"a\u2028b\"" 2 = "\"a\u2028    b\"" := by decide +kernel
  rw [htext]
  refine ⟨hresponse, rfl, ?_, by decide +kernel, by decide +kernel⟩
  intro h
  have hsame := h.tokens?_eq
  revert hsame
  decide +kernel

end TypedClient.Method
