import TypedClient.Text.Lines

/-!
# Layout of emitted code

Code is indented by two spaces per level. A block of code is shifted line by line, and lines of
white space alone stay as they are. Text that goes into a block comment must not close it.
-/

namespace TypedClient.Text

/-- The white space in front of code at a level; none at a negative one. -/
def indent (level : Int) : String :=
  String.ofList (List.replicate (2 * level.toNat) ' ')

/-- A line at a deeper level. White space alone is not shifted. -/
def indentLine (level : Int) (line : List Char) : List Char :=
  if line.all isBlank then line else (indent level).toList ++ line

/-- Every line of a block at a deeper level. -/
def indentBlock (text : String) (level : Int) : String :=
  String.ofList ((lines text.toList).flatMap (indentLine level))

/-- A backslash between each star and a slash after it. -/
def guardComment : List Char → List Char
  | [] => []
  | '*' :: '/' :: rest => '*' :: '\\' :: '/' :: guardComment rest
  | c :: rest => c :: guardComment rest

/-- The text in a form that does not close a block comment. -/
def inComment (text : String) : String :=
  String.ofList (guardComment text.toList)

/-- The text with two spaces for each tab. -/
def expandTabs (text : String) : String :=
  String.ofList (text.toList.flatMap fun c => if c = '\t' then [' ', ' '] else [c])

theorem eq_space_of_mem_indent {level : Int} {c : Char} (h : c ∈ (indent level).toList) :
    c = ' ' := by
  rw [indent, String.toList_ofList] at h
  exact List.eq_of_mem_replicate h

theorem newline_notMem_indent (level : Int) : '\n' ∉ (indent level).toList :=
  fun h => absurd (eq_space_of_mem_indent h) (by decide)

theorem indent_zero : indent 0 = "" := rfl

theorem indent_add {level depth : Int} (hdepth : 0 ≤ depth) (hlevel : 0 ≤ level) :
    indent (level + depth) = indent depth ++ indent level := by
  have hsum : 2 * (level + depth).toNat = 2 * depth.toNat + 2 * level.toNat := by omega
  apply String.toList_injective
  simp only [indent, String.toList_append, String.toList_ofList, hsum,
    List.replicate_append_replicate]

theorem indentLine_of_nonpos {level : Int} (h : level ≤ 0) (line : List Char) :
    indentLine level line = line := by
  have hnone : level.toNat = 0 := by omega
  simp [indentLine, indent, hnone]

end TypedClient.Text
