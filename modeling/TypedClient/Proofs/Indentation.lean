import TypedClient.Proofs.Methods.Lines
import TypedClient.Text.Split

/-!
# Indented blocks

A list of texts is the lines of a text if each but the last ends with a break, no break stands
inside of one, and no two breaks meet to one (`Rows`). Indentation puts spaces in front of lines
that have more than white space. Breaks are white space and spaces are no breaks, and a line that
begins with a line feed has nothing else in it, so the indented lines are lines again
(`Rows.map_indentLine`). Hence what indentation does to a block it does to each line
(`lines_indentBlock`), and levels add up and can be taken back (`indentBlock_action`).
-/

namespace TypedClient.Text

variable {body cs ending line rest : List Char} {ls : List (List Char)} {c : Char} {level : Int}

/-! ## Lines -/

/-- A line break: one character, or a carriage return with a line feed behind it. -/
inductive IsBreak : List Char → Prop
  | pair : IsBreak ['\r', '\n']
  | single {c : Char} : isLineBreak c = true → IsBreak [c]

/-- Lines that are those of one text. -/
inductive Rows : List (List Char) → Prop
  | nil : Rows []
  | last {line : List Char} : line ≠ [] → (∀ c ∈ line, isLineBreak c = false) → Rows [line]
  | cons {body ending : List Char} {ls : List (List Char)} : (∀ c ∈ body, isLineBreak c = false) →
      IsBreak ending → Parted ending ls.flatten → Rows ls → Rows ((body ++ ending) :: ls)

theorem IsBreak.ne_nil (h : IsBreak ending) : ending ≠ [] := by
  cases h <;> simp

theorem IsBreak.isBlank (h : IsBreak ending) : ending.all isBlank = true := by
  cases h with
  | pair => rfl
  | single hbreak => simpa using isBlank_of_isLineBreak hbreak

theorem IsBreak.lines_append (h : IsBreak ending) (hparted : Parted ending rest) :
    lines (ending ++ rest) = ending :: lines rest := by
  cases h with
  | pair => simp [lines]
  | single hbreak => rw [List.singleton_append, lines_cons hparted, if_pos hbreak]

theorem lines_of_not_break (h : ∀ c ∈ cs, isLineBreak c = false) (hne : cs ≠ []) :
    lines cs = [cs] := by
  obtain ⟨init, c, rfl⟩ := List.eq_nil_or_concat' cs |>.resolve_left hne
  have hc : isLineBreak c = false := h c (by simp)
  rw [lines_append_of_not_break (fun d hd => h d (by simp [hd])) (by simp),
    lines_cons (by simp [Parted]), hc, if_neg Bool.false_ne_true]
  rfl

theorem Rows.cons_head (hc : isLineBreak c = false) (h : Rows (line :: ls)) :
    Rows ((c :: line) :: ls) := by
  cases h with
  | last hne hline => exact .last (by simp) (List.forall_mem_cons.2 ⟨hc, hline⟩)
  | @cons body _ _ hbody hending hparted hrest =>
    exact @Rows.cons (c :: body) _ _ (List.forall_mem_cons.2 ⟨hc, hbody⟩) hending hparted hrest

theorem rows_lines (cs : List Char) : Rows (lines cs) := by
  fun_induction lines cs with
  | case1 => exact .nil
  | case2 rest ih => exact @Rows.cons [] _ _ (by simp) .pair (by simp [Parted]) ih
  | case3 c rest hother hbreak ih =>
    refine @Rows.cons [] _ _ (by simp) (.single hbreak) (fun hlast hhead => ?_) ih
    rw [flatten_lines] at hhead
    obtain ⟨rest, rfl⟩ := List.head?_eq_some_iff.1 hhead
    exact hother rest (by simpa using hlast) rfl
  | case4 c rest _ hbreak _ _ =>
    exact .last (by simp) (by simpa using hbreak)
  | case5 c rest _ hbreak line more hlines ih =>
    rw [hlines] at ih
    exact ih.cons_head (by simpa using hbreak)

theorem Rows.lines_flatten (h : Rows ls) : lines ls.flatten = ls := by
  induction h with
  | nil => rfl
  | last hne hline => rw [List.flatten_singleton, lines_of_not_break hline hne]
  | @cons body ending ls hbody hending hparted _ ih =>
    rw [List.flatten_cons, List.append_assoc,
      lines_append_of_not_break hbody (by simp [hending.ne_nil]), hending.lines_append hparted, ih]
    rfl

/-! ## Lines at a deeper level -/

theorem all_isBlank_indentLine (level : Int) (line : List Char) :
    (indentLine level line).all isBlank = line.all isBlank := by
  unfold indentLine
  split
  · rfl
  · have hindent : (indent level).toList.all isBlank = true :=
      List.all_eq_true.2 fun c hc => eq_space_of_mem_indent hc ▸ rfl
    rw [List.all_append, hindent, Bool.true_and]

theorem not_break_indentLine (h : ∀ c ∈ line, isLineBreak c = false) :
    ∀ c ∈ indentLine level line, isLineBreak c = false := by
  unfold indentLine
  split
  · exact h
  · exact List.forall_mem_append.2 ⟨fun c hc => eq_space_of_mem_indent hc ▸ rfl, h⟩

theorem suffix_indentLine (level : Int) (line : List Char) : line <:+ indentLine level line := by
  unfold indentLine
  split
  · exact List.suffix_rfl
  · exact List.suffix_append _ _

theorem indentLine_append_break (hending : IsBreak ending) (level : Int) (body : List Char) :
    indentLine level (body ++ ending) = indentLine level body ++ ending := by
  simp only [indentLine, List.all_append, hending.isBlank, Bool.and_true]
  split
  · rfl
  · rw [List.append_assoc]

/-- Indentation puts no line feed at the beginning of a line. -/
theorem head?_flatten_indentLine
    (h : (ls.map (indentLine level)).flatten.head? = some '\n') : ls.flatten.head? = some '\n' := by
  induction ls with
  | nil => exact h
  | cons line ls ih =>
    rcases line with _ | ⟨c, line⟩
    · exact ih h
    by_cases hblank : (c :: line).all isBlank = true
    · simpa [indentLine, hblank] using h
    · rw [List.map_cons, List.flatten_cons, indentLine, if_neg hblank, List.append_assoc] at h
      by_cases hnone : (indent level).toList = []
      · simpa [hnone] using h
      · have hspace : '\n' ∈ (indent level).toList := by
          rw [List.head?_append_of_ne_nil _ hnone] at h
          exact List.mem_of_mem_head? h
        exact absurd hspace (newline_notMem_indent level)

theorem Rows.map_indentLine (h : Rows ls) (level : Int) : Rows (ls.map (indentLine level)) := by
  induction h with
  | nil => exact .nil
  | @last line hne hline =>
    refine .last (fun hnil => hne ?_) (not_break_indentLine hline)
    exact List.suffix_nil.1 (hnil ▸ suffix_indentLine level line)
  | @cons body ending ls hbody hending hparted _ ih =>
    rw [List.map_cons, indentLine_append_break hending]
    exact .cons (not_break_indentLine hbody) hending
      (fun hlast hhead => hparted hlast (head?_flatten_indentLine hhead)) ih

theorem lines_indentBlock (text : String) (level : Int) :
    lines (indentBlock text level).toList = (lines text.toList).map (indentLine level) := by
  rw [indentBlock, String.toList_ofList, List.flatMap_def]
  exact ((rows_lines text.toList).map_indentLine level).lines_flatten

theorem indentLine_indentLine {level depth : Int} (hlevel : 0 ≤ level) (hdepth : 0 ≤ depth)
    (line : List Char) :
    indentLine depth (indentLine level line) = indentLine (level + depth) line := by
  rw [indentLine, all_isBlank_indentLine]
  unfold indentLine
  split
  · rfl
  · rw [indent_add hdepth hlevel, String.toList_append, List.append_assoc]

/-! ## What indentation keeps -/

/-- The break at the end of a line; nothing if it has none. -/
def lineEnding (line : List Char) : List Char :=
  line.dropWhile (!isLineBreak ·)

theorem lineEnding_indentLine (level : Int) (line : List Char) :
    lineEnding (indentLine level line) = lineEnding line := by
  unfold indentLine
  split
  · rfl
  · exact List.dropWhile_append_of_pos fun c hc => eq_space_of_mem_indent hc ▸ rfl

/-- A line without the white space of a level in front of it. White space alone stays. -/
def outdentLine (level : Int) (line : List Char) : List Char :=
  if line.all isBlank then line else (dropStart? (indent level).toList line).getD line

/-- A block with every line taken back by a level. -/
def outdentBlock (text : String) (level : Int) : String :=
  String.ofList ((lines text.toList).flatMap (outdentLine level))

theorem outdentLine_indentLine (level : Int) (line : List Char) :
    outdentLine level (indentLine level line) = line := by
  rw [outdentLine, all_isBlank_indentLine]
  unfold indentLine
  split
  · rfl
  · rw [dropStart?_append, Option.getD_some]

theorem outdentBlock_indentBlock (text : String) (level : Int) :
    outdentBlock (indentBlock text level) level = text := by
  rw [outdentBlock, lines_indentBlock, List.flatMap_map,
    funext (outdentLine_indentLine level), List.flatMap_id', flatten_lines, String.ofList_toList]

theorem indentBlock_indentBlock {level depth : Int} (hlevel : 0 ≤ level) (hdepth : 0 ≤ depth)
    (text : String) :
    indentBlock (indentBlock text level) depth = indentBlock text (level + depth) := by
  rw [indentBlock, lines_indentBlock, List.flatMap_map,
    funext (indentLine_indentLine hlevel hdepth), ← indentBlock]

theorem indentBlock_zero (text : String) : indentBlock text 0 = text := by
  rw [indentBlock, funext (indentLine_of_nonpos (Int.le_refl 0)), List.flatMap_id', flatten_lines,
    String.ofList_toList]

/-- Indentation is an action of the levels on the texts: levels add up, and the level zero changes
nothing. It shifts each line for itself, keeps the breaks, and can be taken back, so it keeps
different texts apart. -/
theorem indentBlock_action (text : String) (a b : ℕ) :
    indentBlock (indentBlock text a) b = indentBlock text (a + b) ∧
      indentBlock text 0 = text ∧
      lines (indentBlock text a).toList = (lines text.toList).map (indentLine a) ∧
      (lines (indentBlock text a).toList).map lineEnding = (lines text.toList).map lineEnding ∧
      outdentBlock (indentBlock text a) a = text ∧
      ∀ other, indentBlock other a = indentBlock text a ↔ other = text := by
  refine ⟨?_, indentBlock_zero text, lines_indentBlock text a, ?_,
    outdentBlock_indentBlock text a, fun other => ⟨fun heq => ?_, fun heq => heq ▸ rfl⟩⟩
  · exact indentBlock_indentBlock (Int.natCast_nonneg a) (Int.natCast_nonneg b) text
  · rw [lines_indentBlock, List.map_map]
    exact List.map_congr_left fun line _ => lineEnding_indentLine a line
  · have hback := congrArg (outdentBlock · a) heq
    simpa only [outdentBlock_indentBlock] using hback

example : indentBlock "a\r\n \u2028\rb" 2 = "    a\r\n \u2028\r    b" := by
  decide +kernel

end TypedClient.Text
