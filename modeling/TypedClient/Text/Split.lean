/-!
# Cutting a text at a character

`splitAt` gives the pieces between the separators, one more than there are separators. `afterLast`
is the last of these pieces.
-/

namespace TypedClient.Text

/-- The pieces of a text between the separators. -/
def splitAt (sep : Char) : List Char → List (List Char)
  | [] => [[]]
  | c :: rest =>
    if c = sep then [] :: splitAt sep rest
    else
      match splitAt sep rest with
      | [] => [[c]]
      | piece :: more => (c :: piece) :: more

/-- The pieces of a text between the occurrences of two characters in a row. -/
def splitAtPair (a b : Char) : List Char → List (List Char)
  | [] => [[]]
  | [c] => [[c]]
  | c :: d :: rest =>
    if c = a && d = b then [] :: splitAtPair a b rest
    else
      match splitAtPair a b (d :: rest) with
      | [] => [[c]]
      | piece :: more => (c :: piece) :: more

/-- What follows the last separator, or the whole text. -/
def afterLast (sep : Char) (cs : List Char) : List Char :=
  (cs.reverse.takeWhile (· != sep)).reverse

/-- The rest of a text after a given beginning. -/
def dropStart? : List Char → List Char → Option (List Char)
  | [], rest => some rest
  | _ :: _, [] => none
  | p :: ps, c :: cs => if p = c then dropStart? ps cs else none

/-- The text before a given end. -/
def dropEnd? (ending cs : List Char) : Option (List Char) :=
  (dropStart? ending.reverse cs.reverse).map List.reverse

theorem dropStart?_append (start rest : List Char) :
    dropStart? start (start ++ rest) = some rest := by
  induction start with
  | nil => rfl
  | cons p ps ih => simp [dropStart?, ih]

theorem eq_append_of_dropStart? {start cs rest : List Char} (h : dropStart? start cs = some rest) :
    cs = start ++ rest := by
  induction start generalizing cs with
  | nil => simpa [dropStart?] using h
  | cons p ps ih =>
    cases cs with
    | nil => simp [dropStart?] at h
    | cons c cs =>
      simp only [dropStart?] at h
      split at h
      next hp => rw [hp, ih h, List.cons_append]
      next => cases h

theorem not_pair_infix_cons {a b c : Char} {cs : List Char} :
    ¬ [a, b] <:+: c :: cs ↔ ¬ (c = a ∧ cs.head? = some b) ∧ ¬ [a, b] <:+: cs := by
  rw [List.infix_cons_iff, not_or]
  refine and_congr_left fun _ => not_congr ?_
  rcases cs with _ | ⟨d, cs⟩
  · simp
  · simp [List.cons_prefix_cons, eq_comm]

theorem splitAt_ne_nil (sep : Char) (cs : List Char) : splitAt sep cs ≠ [] := by
  cases cs with
  | nil => simp [splitAt]
  | cons c cs =>
    rw [splitAt]
    split
    · simp
    · split <;> simp

/-- A text is cut at each separator, so at one in its middle. -/
theorem splitAt_append (sep : Char) (cs rest : List Char) :
    splitAt sep (cs ++ sep :: rest) = splitAt sep cs ++ splitAt sep rest := by
  induction cs with
  | nil => simp [splitAt]
  | cons c cs ih =>
    rw [List.cons_append, splitAt, splitAt]
    split
    · rw [ih, List.cons_append]
    · rw [ih]
      rcases h : splitAt sep cs with _ | ⟨piece, more⟩
      · exact absurd h (splitAt_ne_nil sep cs)
      · rfl

theorem splitAt_of_notMem {sep : Char} : ∀ {cs : List Char}, sep ∉ cs → splitAt sep cs = [cs]
  | [], _ => rfl
  | c :: cs, h => by
    rw [List.mem_cons, not_or] at h
    rw [splitAt, if_neg (Ne.symm h.1), splitAt_of_notMem h.2]

end TypedClient.Text
