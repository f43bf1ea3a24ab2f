import TypedClient.Text.Blank

/-!
# Lines of a text

A line ends with a line break: one of ten characters, or a carriage return with the line feed after
it, which count as one break. `lines` keeps the breaks, so the lines of a text always concatenate to
it; `lineBodies` leaves them out.
-/

namespace TypedClient.Text

/-- The characters that end a line. -/
def isLineBreak (c : Char) : Bool :=
  let n := c.toNat
  (0x0a ≤ n && n ≤ 0x0d) || (0x1c ≤ n && n ≤ 0x1e) || n == 0x85 || n == 0x2028 || n == 0x2029

/-- The lines of a text with their breaks. The last one may have none. -/
def lines : List Char → List (List Char)
  | [] => []
  | '\r' :: '\n' :: rest => ['\r', '\n'] :: lines rest
  | c :: rest =>
    if isLineBreak c then
      [c] :: lines rest
    else
      match lines rest with
      | [] => [[c]]
      | line :: more => (c :: line) :: more

/-- The lines of a text without their breaks. -/
def lineBodies (cs : List Char) : List (List Char) :=
  (lines cs).map (·.filter (!isLineBreak ·))

theorem isBlank_of_isLineBreak {c : Char} (h : isLineBreak c = true) : isBlank c = true := by
  simp only [isLineBreak, isBlank, Bool.or_eq_true, Bool.and_eq_true, decide_eq_true_eq,
    beq_iff_eq] at h ⊢
  omega

theorem flatten_lines (cs : List Char) : (lines cs).flatten = cs := by
  fun_induction lines cs with
  | case1 => rfl
  | case2 rest ih => simp [ih]
  | case3 c rest _ _ ih => simp [ih]
  | case4 c rest _ _ h ih =>
    rw [h] at ih
    simp [← ih]
  | case5 c rest _ _ line more h ih =>
    rw [h] at ih
    simp [← ih]

end TypedClient.Text
