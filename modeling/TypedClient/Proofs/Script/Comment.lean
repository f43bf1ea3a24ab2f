import TypedClient.Client.DocComment
import TypedClient.Proofs.Script.Access
import TypedClient.Proofs.Script.Block

/-!
# Comments on methods are well formed

Texts of the description go into a comment guarded, quoted, or cut into lines, and none of these
closes it. The names of parameters go into it as they are, and the descriptions of parameters are
not cut into lines; so a comment is well formed exactly if no name closes it and every line of these
texts but the first has the marker already (`block_text_iff`).
-/

namespace TypedClient.DocComment

open Text

/-! ## Lines of the comment on a method -/

/-- The lines between the first and the last one. -/
def inner (reg : Registry) (e : Endpoint) : List String :=
  aboutLines e ++ pathLines e.pathParameters ++ queryLines e.queryParameters ++
    (if e.requestBody.isSome then [" * @param body - Request body"] else []) ++
    [" * @returns Promise resolving to API result with type-safe success/error handling",
      " *",
      " * @example",
      " * ```typescript"] ++
    starred (example_ reg e) ++
    [" * ```"]

theorem lines_eq (reg : Registry) (e : Endpoint) :
    lines reg e = "/**" :: (inner reg e ++ [" */"]) := by
  simp only [lines, inner, List.cons_append, List.nil_append, List.append_assoc]

/-- The line about a path parameter. -/
def pathLine (p : Parameter) : String :=
  " * @param params." ++ p.name ++ " - " ++ parameterText p

/-- The line about a query parameter. -/
def queryLine (p : Parameter) : String :=
  " * @param query." ++ p.name ++ " - " ++ parameterText p ++
    (if p.required then " (required)" else " (optional)")

/-- A title with the lines about parameters below it, if there are any. -/
def listing (title : String) (f : Parameter → String) (ps : List Parameter) : List String :=
  if ps.isEmpty then [] else title :: ps.map f

/-- The lines that do not depend on the texts of the description. -/
def fixedLines : List String := [
  " *",
  " * @param params - Path parameters",
  " * @param query - Query parameters",
  " * @param body - Request body",
  " * @returns Promise resolving to API result with type-safe success/error handling",
  " * @example",
  " * ```typescript",
  " * ```"]

section

variable {reg : Registry} {e : Endpoint} {line : String} {ps : List Parameter} {p : Parameter}

theorem mem_listing {title : String} (htitle : title ∈ fixedLines) {f : Parameter → String}
    (h : line ∈ listing title f ps) : line ∈ fixedLines ∨ ∃ p ∈ ps, line = f p := by
  unfold listing at h
  split at h
  · cases h
  · rcases List.mem_cons.1 h with rfl | h
    · exact .inl htitle
    · obtain ⟨p, hp, rfl⟩ := List.mem_map.1 h
      exact .inr ⟨p, hp, rfl⟩

theorem mem_listing_of_mem (title : String) (f : Parameter → String) (hp : p ∈ ps) :
    f p ∈ listing title f ps := by
  unfold listing
  split
  · rename_i hempty
    rw [List.isEmpty_iff.1 hempty] at hp
    cases hp
  · exact List.mem_cons_of_mem _ (List.mem_map_of_mem hp)

theorem mem_aboutLines (h : line ∈ aboutLines e) :
    line ∈ fixedLines ∨ ∃ s, line ∈ starred (inComment s) := by
  unfold aboutLines at h
  rw [List.mem_append, List.mem_append] at h
  rcases h with (h | h) | h
  · exact .inr ⟨_, h⟩
  · split at h
    · split at h
      · cases h
      · rcases List.mem_cons.1 h with rfl | h
        · exact .inl (by simp [fixedLines])
        · exact .inr ⟨_, h⟩
    · cases h
  · rw [List.mem_singleton.1 h]
    exact .inl (by simp [fixedLines])

/-- A line inside the comment is fixed, is cut from a text, or is about a parameter. -/
theorem mem_inner (h : line ∈ inner reg e) : line ∈ fixedLines ∨
    (∃ s, line ∈ starred (inComment s)) ∨ line ∈ starred (example_ reg e) ∨
    (∃ p ∈ e.pathParameters, line = pathLine p) ∨ ∃ p ∈ e.queryParameters, line = queryLine p := by
  simp only [inner, List.mem_append, or_assoc] at h
  rcases h with h | h | h | h | h | h | h
  · rcases mem_aboutLines h with h | h
    · exact .inl h
    · exact .inr (.inl h)
  · rcases mem_listing (by simp [fixedLines]) h with h | h
    · exact .inl h
    · exact .inr (.inr (.inr (.inl h)))
  · rcases mem_listing (by simp [fixedLines]) h with h | h
    · exact .inl h
    · exact .inr (.inr (.inr (.inr h)))
  · split at h
    · rw [List.mem_singleton.1 h]
      exact .inl (by simp [fixedLines])
    · cases h
  · refine .inl ?_
    simp only [List.mem_cons, List.not_mem_nil, or_false] at h
    rcases h with rfl | rfl | rfl | rfl <;> simp [fixedLines]
  · exact .inr (.inr (.inl h))
  · rw [List.mem_singleton.1 h]
    exact .inl (by simp [fixedLines])

theorem pathLine_mem_inner (hp : p ∈ e.pathParameters) : pathLine p ∈ inner reg e := by
  have hmem : pathLine p ∈ pathLines e.pathParameters := mem_listing_of_mem _ _ hp
  simp only [inner, List.mem_append]
  exact .inl (.inl (.inl (.inl (.inl (.inr hmem)))))

theorem queryLine_mem_inner (hp : p ∈ e.queryParameters) : queryLine p ∈ inner reg e := by
  have hmem : queryLine p ∈ queryLines e.queryParameters := mem_listing_of_mem _ _ hp
  simp only [inner, List.mem_append]
  exact .inl (.inl (.inl (.inl (.inr hmem))))

theorem fixedLines_spec : ∀ line ∈ fixedLines, [' ', '*'] <+: line.toList ∧
    '\n' ∉ line.toList ∧ closings line.toList = 0 :=
  forall_mem_of_chars
    (P := fun cs => [' ', '*'] <+: cs ∧ '\n' ∉ cs ∧ closings cs = 0)
    (by repeat constructor) (by decide +kernel)

/-! ### Every line begins with the star -/

theorem star_prefix_trimEnd (cs : List Char) : [' ', '*'] <+: trimEnd (" * ".toList ++ cs) := by
  -- the star is no blank, so nothing is cut off before it
  have hsuffix : ['*', ' '] <:+ (cs.reverse ++ [' ', '*', ' ']).dropWhile isBlank := by
    rw [List.dropWhile_append]
    split
    · exact List.suffix_rfl
    · exact ⟨(cs.reverse.dropWhile isBlank) ++ [' '], by simp⟩
  rw [trimEnd, show (" * ".toList ++ cs).reverse = cs.reverse ++ [' ', '*', ' '] by simp]
  exact List.reverse_suffix.1 (by simpa using hsuffix)

theorem star_prefix_of_mem_starred {text : String} (h : line ∈ starred text) :
    [' ', '*'] <+: line.toList := by
  obtain ⟨body, -, rfl⟩ := List.mem_map.1 h
  rw [String.toList_ofList]
  exact star_prefix_trimEnd body

theorem star_prefix_append {s : String} (h : [' ', '*'] <+: s.toList) (t : String) :
    [' ', '*'] <+: (s ++ t).toList := by
  rw [String.toList_append]
  exact h.trans (List.prefix_append _ _)

theorem star_prefix_of_mem_inner (h : line ∈ inner reg e) : [' ', '*'] <+: line.toList := by
  rcases mem_inner h with h | ⟨s, h⟩ | h | ⟨p, -, rfl⟩ | ⟨p, -, rfl⟩
  · exact (fixedLines_spec line h).1
  · exact star_prefix_of_mem_starred h
  · exact star_prefix_of_mem_starred h
  · exact star_prefix_append (star_prefix_append (star_prefix_append (by decide) _) _) _
  · exact star_prefix_append (star_prefix_append (star_prefix_append
      (star_prefix_append (by decide) _) _) _) _

end

/-! ### Blocks and lines -/

/-- The line fits into a comment at a level, given that it begins with the star. -/
def Fits (level : Int) (line : String) : Prop :=
  Marked (marker level) line.toList ∧ closings line.toList = 0

theorem fits_of_notMem {line : String} (hfeed : '\n' ∉ line.toList)
    (hnone : closings line.toList = 0) (level : Int) : Fits level line :=
  ⟨marked_of_notMem hfeed, hnone⟩

theorem block_iff (reg : Registry) (e : Endpoint) (level : Int) :
    Block level (text reg e level) ↔ ∀ line ∈ inner reg e, Fits level line := by
  let between := (inner reg e).flatMap fun line =>
    splitAt '\n' ((indent level).toList ++ line.toList)
  have hsplit : splitAt '\n' (text reg e level).toList =
      [(indent level).toList ++ ['/', '*', '*']] ++ between ++
        [(indent level).toList ++ [' ', '*', '/'], []] := by
    have hopening : '\n' ∉ (indent level).toList ++ ['/', '*', '*'] := by
      simp [newline_notMem_indent]
    have hclosing : '\n' ∉ (indent level).toList ++ [' ', '*', '/'] := by
      simp [newline_notMem_indent]
    rw [text, lines_eq, splitAt_join]
    simp [between, splitAt_of_notMem hopening, splitAt_of_notMem hclosing]
  have hclosings : closings (text reg e level).toList =
      ((inner reg e).map fun line => closings line.toList).sum + 1 := by
    rw [text, lines_eq, closings_join]
    simp [closings, pair]
  have hlines : (∀ line ∈ between, marker level <+: line) ↔
      ∀ line ∈ inner reg e, Marked (marker level) line.toList := by
    simp only [between, List.forall_mem_flatMap]
    refine forall₂_congr fun line hline => ?_
    rw [forall_mem_splitAt (newline_notMem_marker level),
      marked_append_of_notMem (newline_notMem_indent level)]
    refine and_iff_right ?_
    exact (List.prefix_append_right_inj _).2 (star_prefix_of_mem_inner hline)
  have hzero : ((inner reg e).map fun line => closings line.toList).sum = 0 ↔
      ∀ line ∈ inner reg e, closings line.toList = 0 := by
    simp [List.sum_eq_zero_iff_forall_eq_nat]
  simp only [Fits, forall₂_and]
  rw [← hlines, ← hzero]
  -- the text has only one row of lines between its first and last one
  constructor
  · rintro ⟨⟨own, heq, hown⟩, honce⟩
    rw [hsplit, List.append_cancel_right_eq, List.append_cancel_left_eq] at heq
    rw [hclosings] at honce
    exact ⟨heq ▸ hown, by omega⟩
  · rintro ⟨hmarked, hnone⟩
    exact ⟨⟨between, hsplit, hmarked⟩, by rw [hclosings, hnone]⟩

/-! ## Texts cut into lines -/

theorem exists_body_of_mem_lines : ∀ {cs line : List Char}, line ∈ Text.lines cs →
    ∃ body ending, line = body ++ ending ∧ (∀ c ∈ body, isLineBreak c = false) ∧
      ∀ c ∈ ending, isLineBreak c = true := by
  intro cs
  fun_induction Text.lines cs with
  | case1 => simp
  | case2 rest ih =>
    intro line h
    rcases List.mem_cons.1 h with rfl | h
    · exact ⟨[], _, rfl, by simp, by simp [isLineBreak]⟩
    · exact ih h
  | case3 c rest _ hbreak ih =>
    intro line h
    rcases List.mem_cons.1 h with rfl | h
    · exact ⟨[], _, rfl, by simp, by simpa using hbreak⟩
    · exact ih h
  | case4 c rest _ hbreak _ ih =>
    intro line h
    rw [List.mem_singleton.1 h]
    exact ⟨[c], [], rfl, by simpa using hbreak, by simp⟩
  | case5 c rest _ hbreak line more hlines ih =>
    intro line' h
    rcases List.mem_cons.1 h with rfl | h
    · obtain ⟨body, ending, rfl, hbody, hending⟩ := ih (hlines ▸ List.mem_cons_self)
      exact ⟨c :: body, ending, rfl, by simpa [hbreak] using hbody, hending⟩
    · exact ih (hlines ▸ List.mem_cons_of_mem _ h)

/-- A line without its break is a part of the text and has no break. -/
theorem lineBodies_spec {cs body : List Char} (h : body ∈ lineBodies cs) :
    (∀ c ∈ body, isLineBreak c = false) ∧ closings body ≤ closings cs := by
  obtain ⟨line, hline, rfl⟩ := List.mem_map.1 h
  obtain ⟨body, ending, rfl, hbody, hending⟩ := exists_body_of_mem_lines hline
  have hfilter : (body ++ ending).filter (!isLineBreak ·) = body := by
    rw [List.filter_append, List.filter_eq_self.2 (by simpa using hbody),
      List.filter_eq_nil_iff.2 (by simpa using hending), List.append_nil]
  have hwhole := closings_le_of_mem hline
  rw [flatten_lines] at hwhole
  have hpart := closings_add_le body ending
  rw [hfilter]
  exact ⟨hbody, by omega⟩

theorem isPrefix_trimEnd (cs : List Char) : trimEnd cs <+: cs := by
  rw [trimEnd, ← List.reverse_suffix, List.reverse_reverse]
  exact List.dropWhile_suffix _

/-- The lines that are cut from a text fit into a comment if the text does not close it. -/
theorem fits_of_mem_starred {text line : String} (hnone : closings text.toList = 0)
    (h : line ∈ starred text) (level : Int) : Fits level line := by
  obtain ⟨body, hbody, rfl⟩ := List.mem_map.1 h
  obtain ⟨hbreaks, hclosings⟩ := lineBodies_spec hbody
  obtain ⟨after, htrim⟩ := isPrefix_trimEnd (" * ".toList ++ body)
  have hfeed : '\n' ∉ " * ".toList ++ body := by
    rw [List.mem_append, not_or]
    exact ⟨by decide, fun hmem => absurd (hbreaks _ hmem) (by decide)⟩
  have hapart : Apart " * ".toList body := .inl (by decide)
  have hsum := closings_append hapart
  have hcut := closings_add_le (trimEnd (" * ".toList ++ body)) after
  rw [htrim, hsum, show closings " * ".toList = 0 by decide] at hcut
  refine fits_of_notMem ?_ ?_ level <;> rw [String.toList_ofList]
  · exact fun hmem => hfeed ((isPrefix_trimEnd _).subset hmem)
  · omega

/-! ## The example -/

theorem doubleQuotedChar_cases (c : Char) :
    doubleQuotedChar c = [c] ∨
      '*' ∉ doubleQuotedChar c ∧ (doubleQuotedChar c).head? = some '\\' := by
  unfold doubleQuotedChar
  split
  · rename_i e he
    unfold shortEscape? at he
    split at he <;> cases he <;> simp
  · split
    · refine .inr ⟨?_, rfl⟩
      rw [List.mem_cons, List.mem_cons, not_or, not_or]
      exact ⟨by decide, by decide, fun h => Toml.ne_of_mem_hex h (by decide) rfl⟩
    · exact .inl rfl

theorem sealed_doubleQuoted {name : String} (hnone : closings name.toList = 0) :
    Sealed (doubleQuoted name) := by
  have hinside := closings_flatMap doubleQuotedChar_cases name.toList hnone
  refine ⟨?_, ?_⟩ <;> rw [doubleQuoted, String.toList_ofList]
  · have hquote : Apart (name.toList.flatMap doubleQuotedChar) ['"'] := .inr (by simp)
    rw [closings, closings_append hquote, hinside]
    simp [pair, closings]
  · rw [← List.cons_append, List.getLast?_append]
    simp

theorem sealed_propertyKey {name : String} (hnone : closings name.toList = 0) :
    Sealed (Name.propertyKey name) := by
  unfold Name.propertyKey
  split
  · rename_i hname
    exact .of_notMem (Script.notMem_of_isIdentifier hname (by decide) (by decide))
  · exact sealed_doubleQuoted hnone

theorem mem_guardDigit {cs : List Char} {c : Char} (h : c ∈ Name.guardDigit cs) :
    c ∈ cs ∨ c = '_' := by
  unfold Name.guardDigit at h
  split at h
  · cases h
  · split at h
    · rcases List.mem_cons.1 h with rfl | h
      · exact .inr rfl
      · exact .inl h
    · exact .inl h

theorem mem_separateWords {cs : List Char} {c : Char} (h : c ∈ Name.separateWords cs) :
    c ∈ cs ∨ c = '_' := by
  fun_induction Name.separateWords cs with
  | case1 a b rest hcut ih =>
    rcases List.mem_cons.1 h with rfl | h
    · exact .inl List.mem_cons_self
    · rcases List.mem_cons.1 h with rfl | h
      · exact .inr rfl
      · exact (ih h).imp_left (List.mem_cons_of_mem _)
  | case2 a b rest hcut ih =>
    rcases List.mem_cons.1 h with rfl | h
    · exact .inl List.mem_cons_self
    · exact (ih h).imp_left (List.mem_cons_of_mem _)
  | case3 => exact .inl h

theorem toLower_ne_star {c : Char} (h : Name.isWordChar c = true ∨ c = '_') : c.toLower ≠ '*' := by
  rcases h with h | rfl
  · exact Name.of_isWordChar (P := fun c => c.toLower ≠ '*') (by decide) h
  · decide

/-- A character of the name of a method comes from a letter, a digit or an underscore. -/
theorem exists_of_mem_method {operationId : String} {c : Char}
    (h : c ∈ (Name.method operationId).toList) :
    ∃ d, (Name.isWordChar d = true ∨ d = '_') ∧ d.toLower = c := by
  rw [Name.method, String.toList_ofList, List.mem_map] at h
  obtain ⟨c, hc, hlower⟩ := h
  refine ⟨c, ?_, hlower⟩
  rcases mem_separateWords hc with hc | rfl
  · rcases mem_guardDigit hc with hc | rfl
    · obtain ⟨d, -, rfl⟩ := List.mem_map.1 hc
      split
      · rename_i hd
        exact .inl hd
      · exact .inr rfl
    · exact .inr rfl
  · exact .inr rfl

theorem sealed_method (operationId : String) : Sealed (Name.method operationId) := by
  refine .of_notMem fun h => ?_
  obtain ⟨d, hd, hlower⟩ := exists_of_mem_method h
  exact toLower_ne_star hd hlower

theorem sealed_pathValue (reg : Registry) (p : Parameter) :
    Sealed (Call.pathValue Call.commentStyle reg p) := by
  unfold Call.pathValue
  split <;> exact .of_notMem (by decide)

theorem sealed_queryValue (reg : Registry) (p : Parameter) :
    Sealed (Call.queryValue Call.commentStyle reg p) := by
  have hchoices : ¬ Call.commentStyle.usesChoices = true := by decide
  unfold Call.queryValue
  rw [if_neg hchoices]
  split <;> exact .of_notMem (by decide)

theorem sealed_bundle {value : Parameter → String} (hvalue : ∀ p, Sealed (value p))
    {ps : List Parameter} (hnames : ∀ p ∈ ps, closings p.name.toList = 0) :
    Sealed (Call.bundle value ps) := by
  have hproperties : ∀ t ∈ ps.map fun p => Name.propertyKey p.name ++ ": " ++ value p,
      Sealed t := by
    intro t ht
    obtain ⟨p, hp, rfl⟩ := List.mem_map.1 ht
    exact ((sealed_propertyKey (hnames p hp)).append (.of_notMem (by decide))).append (hvalue p)
  exact ((Sealed.of_notMem (by decide)).append
    (.intercalate (.of_notMem (by decide)) hproperties)).append (.of_notMem (by decide))

section

variable {reg : Registry} {e : Endpoint}
  (hnames : ∀ p ∈ e.pathParameters ++ e.queryParameters, closings p.name.toList = 0)

include hnames

theorem sealed_of_mem_arguments {s : String}
    (h : s ∈ Call.arguments Call.commentStyle reg e) : Sealed s := by
  have hpath : ∀ p ∈ e.pathParameters, closings p.name.toList = 0 :=
    fun p hp => hnames p (List.mem_append_left _ hp)
  have hquery : ∀ p ∈ e.queryParameters.take Call.queryLimit, closings p.name.toList = 0 :=
    fun p hp => hnames p (List.mem_append_right _ (List.mem_of_mem_take hp))
  rw [Call.arguments, List.mem_append, List.mem_append] at h
  rcases h with (h | h) | h <;> split at h
  · cases h
  · rw [List.mem_singleton.1 h]
    exact sealed_bundle (sealed_pathValue reg) hpath
  · cases h
  · rw [List.mem_singleton.1 h]
    exact sealed_bundle (sealed_queryValue reg) hquery
  · rw [List.mem_singleton.1 h]
    exact .of_notMem (by decide)
  · cases h

/-- The example closes no comment if no name of a parameter does. -/
theorem closings_example : closings (example_ reg e).toList = 0 := by
  have hplain : ∀ {s : String}, '*' ∉ s.toList → Sealed s := .of_notMem
  have hstatement : Sealed (Call.statement Call.commentStyle reg e) :=
    ((((hplain (by decide)).append (sealed_method e.operationId)).append
      (hplain (by decide))).append (.intercalate (hplain (by decide))
        fun _ => sealed_of_mem_arguments hnames)).append (hplain (by decide))
  unfold example_
  exact ((((((hstatement.append (hplain (by decide))).append (hplain (by decide))).append
    (hplain (by decide))).append (hplain (by decide))).append (hplain (by decide))).append
      (hplain (by decide))).closings_eq

end

/-! ## Lines about parameters -/

/-- What may stand behind the description of a parameter. -/
def remarks : List String := ["", " (required)", " (optional)"]

theorem marked_append_remark {remark : String} (h : remark ∈ remarks) (level : Int)
    (cs : List Char) : Marked (marker level) (cs ++ remark.toList) ↔ Marked (marker level) cs := by
  have hcut : ∀ {x : Char} {rest : List Char}, x ≠ ' ' ∧ x ≠ '*' → '\n' ∉ x :: rest →
      (Marked (marker level) (cs ++ ' ' :: x :: rest) ↔ Marked (marker level) cs) := by
    intro x rest hx hrest
    have hnone : '\n' ∉ ' ' :: x :: rest := by
      rw [List.mem_cons, not_or]
      exact ⟨by decide, hrest⟩
    rw [marked_append (marker_prefix_append hx level)]
    exact and_iff_left (marked_of_notMem hnone)
  simp only [remarks, List.mem_cons, List.not_mem_nil, or_false] at h
  rcases h with rfl | rfl | rfl
  · simp
  · exact hcut (by decide) (by decide)
  · exact hcut (by decide) (by decide)

theorem closings_append_remark {remark : String} (h : remark ∈ remarks) (cs : List Char) :
    closings (cs ++ remark.toList) = closings cs := by
  have hremark : remark.toList.head? ≠ some '/' ∧ closings remark.toList = 0 := by
    simp only [remarks, List.mem_cons, List.not_mem_nil, or_false] at h
    rcases h with rfl | rfl | rfl <;> decide
  rw [closings_append (.inr hremark.1), hremark.2, Nat.add_zero]

/-- A line about a parameter fits exactly if its name closes no comment and the marker stands behind
each line feed of its texts. -/
theorem fits_line_iff {opening name text remark : String} (hopening : Sealed opening)
    (hfeed : '\n' ∉ opening.toList) (htext : closings text.toList = 0) (hremark : remark ∈ remarks)
    (level : Int) : Fits level (opening ++ name ++ " - " ++ text ++ remark) ↔
      closings name.toList = 0 ∧ Marked (marker level) name.toList ∧
        Marked (marker level) text.toList := by
  have hdash : ('-' : Char) ≠ ' ' ∧ ('-' : Char) ≠ '*' := by decide
  have hblanks : '\n' ∉ [' ', '-', ' '] := by decide
  have hmiddle : " - ".toList = [' ', '-', ' '] := by decide
  have hmarked : Marked (marker level) (name.toList ++ ([' ', '-', ' '] ++ text.toList)) ↔
      Marked (marker level) name.toList ∧ Marked (marker level) text.toList := by
    have hcut : Marked (marker level) (name.toList ++ ' ' :: '-' :: ' ' :: text.toList) ↔
        Marked (marker level) name.toList ∧
          Marked (marker level) (' ' :: '-' :: ' ' :: text.toList) :=
      marked_append (marker_prefix_append hdash level)
    exact hcut.trans (and_congr_right fun _ => marked_append_of_notMem hblanks)
  have hclosings : closings (name.toList ++ ([' ', '-', ' '] ++ text.toList)) =
      closings name.toList := by
    rw [closings_append (.inr (by simp)), closings_append (.inl (by decide)), htext]
    rfl
  have hline : (opening ++ name ++ " - " ++ text ++ remark).toList =
      opening.toList ++ (name.toList ++ ([' ', '-', ' '] ++ text.toList)) ++ remark.toList := by
    simp
  rw [Fits, hline, closings_append_remark hremark, marked_append_remark hremark,
    marked_append_of_notMem hfeed, closings_append (.inl hopening.getLast_ne),
    hopening.closings_eq, hmarked, hclosings, Nat.zero_add]
  exact and_comm

theorem closings_parameterText (p : Parameter) : closings (parameterText p).toList = 0 :=
  closings_inComment _

/-- The texts of a parameter fit into a comment at a level. -/
def Harmless (level : Int) (p : Parameter) : Prop :=
  closings p.name.toList = 0 ∧ Marked (marker level) p.name.toList ∧
    Marked (marker level) (parameterText p).toList

section

variable {reg : Registry} {e : Endpoint} {line : String} {p : Parameter}

theorem fits_pathLine_iff (level : Int) : Fits level (pathLine p) ↔ Harmless level p := by
  have hline : Fits level (" * @param params." ++ p.name ++ " - " ++ parameterText p ++ "") ↔
      Harmless level p := fits_line_iff ⟨by decide, by decide⟩ (by decide)
    (closings_parameterText p) (by simp [remarks]) level
  rwa [String.append_empty] at hline

theorem fits_queryLine_iff (level : Int) : Fits level (queryLine p) ↔ Harmless level p := by
  unfold queryLine
  refine fits_line_iff ⟨by decide, by decide⟩ (by decide) (closings_parameterText p) ?_ level
  split <;> simp [remarks]

theorem fits_of_mem_inner {level : Int}
    (hall : ∀ p ∈ e.pathParameters ++ e.queryParameters, Harmless level p)
    (h : line ∈ inner reg e) : Fits level line := by
  rcases mem_inner h with h | ⟨s, h⟩ | h | ⟨p, hp, rfl⟩ | ⟨p, hp, rfl⟩
  · obtain ⟨-, hfeed, hnone⟩ := fixedLines_spec line h
    exact fits_of_notMem hfeed hnone level
  · exact fits_of_mem_starred (closings_inComment s) h level
  · exact fits_of_mem_starred (closings_example fun p hp => (hall p hp).1) h level
  · exact (fits_pathLine_iff level).2 (hall p (List.mem_append_left _ hp))
  · exact (fits_queryLine_iff level).2 (hall p (List.mem_append_right _ hp))

end

/-- The comment on a method is well formed exactly if no name of a parameter closes it and every
line of the names and descriptions of parameters but the first has the marker already. The headline
and the description of the operation and its identifier have no say. -/
theorem block_text_iff (reg : Registry) (e : Endpoint) (level : Int) :
    Block level (text reg e level) ↔ ∀ p ∈ e.pathParameters ++ e.queryParameters,
      closings p.name.toList = 0 ∧
      (∀ line ∈ (splitAt '\n' p.name.toList).tail, marker level <+: line) ∧
      ∀ line ∈ (splitAt '\n' (parameterText p).toList).tail, marker level <+: line := by
  have hmarker := newline_notMem_marker level
  have hharmless : ∀ p, Harmless level p ↔ closings p.name.toList = 0 ∧
      (∀ line ∈ (splitAt '\n' p.name.toList).tail, marker level <+: line) ∧
      ∀ line ∈ (splitAt '\n' (parameterText p).toList).tail, marker level <+: line := by
    intro p
    rw [Harmless, marked_iff hmarker, marked_iff hmarker]
  simp only [← hharmless]
  rw [block_iff]
  constructor
  · intro hfits p hp
    rcases List.mem_append.1 hp with hp | hp
    · exact (fits_pathLine_iff level).1 (hfits _ (pathLine_mem_inner hp))
    · exact (fits_queryLine_iff level).1 (hfits _ (queryLine_mem_inner hp))
  · exact fun hall line h => fits_of_mem_inner hall h

/-- An operation with one query parameter. -/
def oneParameter (name : String) (description : Option String) : Endpoint where
  verb := .get
  path := "/pets"
  operationId := "listPets"
  summary := none
  description := none
  parameters := [⟨name, .query, false, description, none⟩]
  requestBody := none
  responses := []
  tags := none

theorem harmless_of_block {name : String} {description : Option String}
    (h : Block 1 (text .empty (oneParameter name description) 1)) :
    Harmless 1 ⟨name, .query, false, description, none⟩ := by
  have hmem : queryLine ⟨name, .query, false, description, none⟩ ∈
      inner .empty (oneParameter name description) :=
    queryLine_mem_inner (by simp [Endpoint.queryParameters, oneParameter])
  exact (fits_queryLine_iff 1).1 ((block_iff _ _ 1).1 h _ hmem)

/-- A name with a star and a slash closes the comment, and a description of two lines leaves one of
them without a marker. -/
theorem not_block_oneParameter :
    ¬ Block 1 (text .empty (oneParameter "a*/b" none) 1) ∧
    ¬ Block 1 (text .empty (oneParameter "id" (some "one\ntwo")) 1) := by
  constructor
  · intro h
    exact absurd (harmless_of_block h).1 (by decide)
  · intro h
    have hlines := (marked_iff (newline_notMem_marker 1)).1 (harmless_of_block h).2.2
    exact absurd hlines (by decide +kernel)

end TypedClient.DocComment
