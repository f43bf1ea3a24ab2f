import Mathlib.Data.List.Basic
import TypedClient.Text.Indent

/-!
# Lines of texts put together

A text has complete lines, each with its break at the end, and behind them characters without a
break. Where another text is put behind it, these characters go on with the first line of that text
(`glue`), and its other lines are added (`exists_lines_append`). Only a carriage return at the end
goes together with a line feed that comes next.
-/

namespace TypedClient.Text

variable {a body cs rest line : List Char} {c : Char}

/-- The lines with a text in front of the first of them. -/
def glue (cs : List Char) : List (List Char) → List (List Char)
  | [] => [cs]
  | line :: more => (cs ++ line) :: more

theorem glue_glue (cs ds : List Char) (ls : List (List Char)) :
    glue cs (glue ds ls) = glue (cs ++ ds) ls := by
  cases ls <;> simp [glue]

/-- No carriage return ends the first text where the second one begins with a line feed. -/
def Parted (a rest : List Char) : Prop :=
  a.getLast? = some '\r' → rest.head? ≠ some '\n'

theorem lines_cons (h : Parted [c] rest) :
    lines (c :: rest) = if isLineBreak c then [c] :: lines rest else glue [c] (lines rest) := by
  rw [lines.eq_def]
  split
  · rename_i heq
    cases heq
  · rename_i heq
    obtain ⟨rfl, rfl⟩ := List.cons.inj heq
    exact absurd rfl (h rfl)
  · rename_i heq
    obtain ⟨rfl, rfl⟩ := List.cons.inj heq
    split
    · rfl
    · rcases lines _ <;> rfl

theorem lines_feed (rest : List Char) : lines ('\n' :: rest) = ['\n'] :: lines rest := by
  rw [lines_cons (by simp [Parted])]
  rfl

theorem lines_ne_nil (h : cs ≠ []) : lines cs ≠ [] := by
  intro hnil
  have hflat := flatten_lines cs
  rw [hnil] at hflat
  exact h hflat.symm

theorem not_break_of_all (h : a.all (!isLineBreak ·) = true) : ∀ c ∈ a, isLineBreak c = false := by
  simpa using h

theorem parted_of_not_break (h : ∀ c ∈ a, isLineBreak c = false) : Parted a rest := by
  intro hlast
  have hbreak := h _ (List.mem_of_getLast? hlast)
  simp [isLineBreak] at hbreak

theorem lines_append_of_not_break (h : ∀ c ∈ a, isLineBreak c = false) (hrest : rest ≠ []) :
    lines (a ++ rest) = glue a (lines rest) := by
  induction a with
  | nil =>
    rcases hlines : lines rest with _ | ⟨line, more⟩
    · exact absurd hlines (lines_ne_nil hrest)
    · simp [glue, hlines]
  | cons c a ih =>
    obtain ⟨hc, ha⟩ := List.forall_mem_cons.1 h
    have hparted : Parted [c] (a ++ rest) := parted_of_not_break (by simpa using hc)
    rw [List.cons_append, lines_cons hparted, hc, ih ha, if_neg Bool.false_ne_true, glue_glue]
    rfl

/-- A line with its break at the end. -/
def Complete (line : List Char) : Prop :=
  ∃ body c, line = body ++ [c] ∧ isLineBreak c = true ∧ '\n' ∉ body

theorem complete_break (h : isLineBreak c = true) : Complete [c] :=
  ⟨[], c, rfl, h, by simp⟩

theorem Complete.cons (hc : isLineBreak c = false) (h : Complete line) : Complete (c :: line) := by
  obtain ⟨body, d, rfl, hd, hbody⟩ := h
  have hfeed : '\n' ≠ c := by
    rintro rfl
    simp [isLineBreak] at hc
  exact ⟨c :: body, d, rfl, hd, by simp [hfeed, hbody]⟩

/-- What a text contributes to the lines of a longer one. -/
def Begins (a : List Char) (init : List (List Char)) (body : List Char) : Prop :=
  (∀ line ∈ init, Complete line) ∧ (∀ c ∈ body, isLineBreak c = false) ∧
    ∀ rest, rest ≠ [] → Parted a rest → lines (a ++ rest) = init ++ glue body (lines rest)

theorem Begins.cons {init : List (List Char)} (hc : isLineBreak c = false)
    (h : Begins a init body) : ∃ init body, Begins (c :: a) init body := by
  obtain ⟨hinit, hbody, hlines⟩ := h
  have hstep (rest : List Char) (hrest : rest ≠ []) (hparted : Parted (c :: a) rest) :
      lines (c :: a ++ rest) = glue [c] (init ++ glue body (lines rest)) := by
    have hfirst : Parted [c] (a ++ rest) := parted_of_not_break (by simpa using hc)
    have hnext : Parted a rest := fun hlast => hparted (by simp [List.getLast?_cons, hlast])
    rw [List.cons_append, lines_cons hfirst, hc, hlines rest hrest hnext,
      if_neg Bool.false_ne_true]
  -- the character goes to the first complete line, or to what goes on behind the text
  cases init with
  | nil =>
    refine ⟨[], c :: body, by simp, by simpa [hc] using hbody, fun rest hrest hparted => ?_⟩
    rw [hstep rest hrest hparted, List.nil_append, glue_glue]
    rfl
  | cons line init =>
    obtain ⟨hline, hinit⟩ := List.forall_mem_cons.1 hinit
    exact ⟨(c :: line) :: init, body, List.forall_mem_cons.2 ⟨hline.cons hc, hinit⟩, hbody,
      fun rest hrest hparted => hstep rest hrest hparted⟩

theorem exists_begins (a : List Char) : ∃ init body, Begins a init body := by
  fun_induction lines a with
  | case1 =>
    refine ⟨[], [], by simp, by simp, fun rest hrest _ => ?_⟩
    exact lines_append_of_not_break (by simp) hrest
  | case2 a ih =>
    obtain ⟨init, body, hinit, hbody, hlines⟩ := ih
    have hpair : Complete ['\r', '\n'] := ⟨['\r'], '\n', rfl, rfl, by simp⟩
    refine ⟨['\r', '\n'] :: init, body, List.forall_mem_cons.2 ⟨hpair, hinit⟩, hbody,
      fun rest hrest hparted => ?_⟩
    have hnext : Parted a rest := fun hlast => hparted (by simp [List.getLast?_cons, hlast])
    simp [lines, hlines rest hrest hnext]
  | case3 c a hother hbreak ih =>
    obtain ⟨init, body, hinit, hbody, hlines⟩ := ih
    refine ⟨[c] :: init, body, List.forall_mem_cons.2 ⟨complete_break hbreak, hinit⟩, hbody,
      fun rest hrest hparted => ?_⟩
    have hnext : Parted a rest := fun hlast => hparted (by simp [List.getLast?_cons, hlast])
    have hfirst : Parted [c] (a ++ rest) := by
      rcases a with _ | ⟨d, a⟩
      · exact hparted
      · intro hc hd
        have hc : c = '\r' := by simpa using hc
        have hd : d = '\n' := by simpa using hd
        exact hother _ hc (by rw [hd])
    rw [List.cons_append, lines_cons hfirst, if_pos hbreak, hlines rest hrest hnext,
      List.cons_append]
  | case4 c a _ hbreak _ ih =>
    obtain ⟨init, body, h⟩ := ih
    exact h.cons (by simpa using hbreak)
  | case5 c a _ hbreak line more _ ih =>
    obtain ⟨init, body, h⟩ := ih
    exact h.cons (by simpa using hbreak)

end TypedClient.Text
