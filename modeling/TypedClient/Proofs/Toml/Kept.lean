import TypedClient.Proofs.Toml.Strings

/-!
# Lines that are kept

The first pass over a text changes nothing in lines that have a key, an equals sign and either a
word or a string on one line (`lines_entries`). Inside a string it keeps track of the backslashes
and quotes right before its position (`Clean`).
-/

namespace TypedClient.Toml

open Text

namespace Pass

/-- The state in a line of an entry, or between two of them: outside arrays, tables, comments and
long strings. -/
def inLine (ending before : List Char) (quote : Option Char) (lineStart : Bool) (key : KeyPhase) :
    Pass :=
  ⟨ending, before, 0, quote, false, false, false, lineStart, key, false, false⟩

theorem start_eq (text : List Char) : start text = inLine text.reverse [] none true .none := rfl

/-- The characters of the keys. -/
def keyChars : List Char := "_abcdefghijklmnopqrstuvwxyz".toList

theorem isBareKeyChar_of_mem : ∀ c ∈ keyChars, isBareKeyChar c = true :=
  List.all_iff_forall_prop.1 (by decide +kernel)

variable {ending before : List Char} {c : Char} {next : Option Char}

theorem run_cons {p p' : Pass} {cs : List Char} (h : p.step c cs.head? = .ok p') :
    run (c :: cs) p = run cs p' := by
  rw [run, h]
  rfl

/-! ## Keys -/

theorem step_first (hc : c ∈ keyChars) : (inLine ending before none true .none).step c next =
    .ok (inLine ending (c :: before) none false .inside) := by
  have hother : ∀ d, d ∉ keyChars → c ≠ d := by
    rintro d hd rfl
    exact hd hc
  simp [step, inLine, valueChar, bracket, written, hother '\'' (by decide), hother '"' (by decide),
    hother '#' (by decide), hother '[' (by decide), hother ']' (by decide), hother '\n' (by decide),
    hother ' ' (by decide), hother '\t' (by decide), hother '=' (by decide)]

theorem step_key (hc : c ∈ keyChars) : (inLine ending before none false .inside).step c next =
    .ok (inLine ending (c :: before) none false .inside) := by
  have hbare := isBareKeyChar_of_mem c hc
  have hblank : ∀ c ∈ keyChars, isBlank c = false ∧ c ≠ '\n' ∧ c ≠ '.' :=
    List.all_iff_forall_prop.1 (by decide)
  obtain ⟨hblank, hfeed, hpoint⟩ := hblank c hc
  simp only [step, inLine, keyChar]
  simp [hbare, hblank, hfeed, hpoint]
  rfl

theorem step_space : (inLine ending before none false .inside).step ' ' next =
    .ok (inLine ending (' ' :: before) none false .after) := rfl

theorem step_equals : (inLine ending before none false .after).step '=' next =
    .ok (inLine ending ('=' :: before) none false .none) := rfl

/-! ## Values -/

/-- A character that means nothing outside strings. -/
def IsPlain (c : Char) : Prop := c ∉ ['\'', '"', '#', '[', ']', '\n']

instance : DecidablePred IsPlain :=
  fun c => inferInstanceAs (Decidable (c ∉ ['\'', '"', '#', '[', ']', '\n']))

theorem step_plain (hc : IsPlain c) : (inLine ending before none false .none).step c next =
    .ok (inLine ending (c :: before) none false .none) := by
  simp only [IsPlain, List.mem_cons, List.not_mem_nil, or_false, not_or] at hc
  obtain ⟨hsingle, hdouble, hcomment, hopen, hclose, hfeed⟩ := hc
  simp [step, inLine, valueChar, bracket, written, hsingle, hdouble, hcomment, hopen, hclose, hfeed]

theorem step_feed : (inLine ending before none false .none).step '\n' next =
    .ok (inLine ending ('\n' :: before) none true .none) := rfl

theorem step_open : (inLine ending (' ' :: before) none false .none).step '"' next =
    .ok (inLine ending ('"' :: ' ' :: before) (some '"') false .none) := by
  simp [step, inLine, valueChar, doubleQuote, runBefore, behind, written]

theorem step_inside (hquote : c ≠ '"') (hfeed : c ≠ '\n') :
    (inLine ending before (some '"') false .none).step c next =
      .ok (inLine ending (c :: before) (some '"') false .none) := by
  simp [step, inLine, valueChar, written, hquote, hfeed]

/-- What stands before a position between the characters of a string: an even number of backslashes,
and no two quotes in a row. The nearest character is first. -/
structure Clean (before : List Char) : Prop where
  nonempty : before ≠ []
  even : (before.takeWhile (· = '\\')).length % 2 = 0
  quotes : ¬ ['"', '"'] <+: before

theorem clean_cons (hquote : c ≠ '"') (hslash : c ≠ '\\') (before : List Char) :
    Clean (c :: before) where
  nonempty := by simp
  even := by simp [hslash]
  quotes := fun h => hquote (List.cons_prefix_cons.1 h).1.symm

theorem clean_escape (h : Clean before) {e : Char} : Clean (e :: '\\' :: before) where
  nonempty := by simp
  even := by
    by_cases he : e = '\\'
    · have heven := h.even
      simp only [he, List.takeWhile_cons, decide_true, if_true, List.length_cons]
      omega
    · simp [he]
  quotes := fun h => by
    have hnext := (List.cons_prefix_cons.1 (List.cons_prefix_cons.1 h).2).1
    exact absurd hnext (by decide)

theorem behind_of_ne {p : Pass} (h : p.before ≠ []) : p.behind = p.before := by
  simp [behind, h]

/-- A quote behind an odd number of backslashes is a part of the string. -/
theorem step_escaped (h : Clean before) :
    (inLine ending ('\\' :: before) (some '"') false .none).step '"' next =
      .ok (inLine ending ('"' :: '\\' :: before) (some '"') false .none) := by
  have hquote : (inLine ending ('\\' :: before) (some '"') false .none).doubleQuote =
      inLine ending ('\\' :: before) (some '"') false .none := by
    have heven := h.even
    unfold doubleQuote runBefore
    rw [behind_of_ne (by simp [inLine])]
    simp [inLine]
    omega
  simp only [step, inLine, valueChar] at hquote ⊢
  simp [hquote, written]

theorem Clean.length_takeWhile_le (h : Clean before) :
    (before.takeWhile (· = '"')).length ≤ 1 := by
  match before, h with
  | [], _ => simp
  | [a], _ => exact (List.takeWhile_prefix _).length_le
  | a :: b :: rest, h =>
    by_cases ha : a = '"'
    · have hb : b ≠ '"' := by
        rintro rfl
        exact h.quotes (by simp [ha])
      simp [ha, hb]
    · simp [ha]

/-- Any other quote ends the string. -/
theorem step_close (h : Clean before) :
    (inLine ending before (some '"') false .none).step '"' next =
      .ok (inLine ending ('"' :: before) none false .none) := by
  have hquote : (inLine ending before (some '"') false .none).doubleQuote =
      inLine ending before none false .none := by
    have hrun := h.length_takeWhile_le
    have heven := h.even
    unfold doubleQuote runBefore
    rw [behind_of_ne h.nonempty]
    rcases hcount : (before.takeWhile (· = '"')).length with _ | n
    · simp [inLine, hcount, heven]
    · have hn : n = 0 := by omega
      simp [inLine, hcount, hn]
  simp only [step, inLine, valueChar] at hquote ⊢
  simp [hquote, written, bracket]

/-- The inside of a string is passed over. -/
theorem run_inside {cs : List Char} (h : Inside cs) : ∀ {before : List Char}, Clean before →
    ∀ rest, run (cs ++ '"' :: rest) (inLine ending before (some '"') false .none) =
      run rest (inLine ending ('"' :: (cs.reverse ++ before)) none false .none) := by
  -- on the inside, for all that may stand before it: a character or an escape leaves that clean
  induction h with
  | nil => exact fun hbefore rest => run_cons (step_close hbefore)
  | @plain c cs hquote hslash hbreak h ih =>
    intro before hbefore rest
    rw [List.cons_append, run_cons (step_inside hquote (not_or.1 hbreak).1),
      ih (clean_cons hquote hslash before), List.reverse_cons, List.append_assoc,
      List.singleton_append]
  | @escape e cs he h ih =>
    intro before hbefore rest
    have hletter : (inLine ending ('\\' :: before) (some '"') false .none).step e
        (cs ++ '"' :: rest).head? =
          .ok (inLine ending (e :: '\\' :: before) (some '"') false .none) := by
      by_cases hquote : e = '"'
      · subst hquote
        exact step_escaped hbefore
      · refine step_inside hquote ?_
        rintro rfl
        revert he
        decide
    rw [List.cons_append, List.cons_append, run_cons (step_inside (by decide) (by decide)),
      run_cons hletter, ih (clean_escape hbefore)]
    simp

/-! ## Lines -/

/-- A value that is passed over where a value is expected. -/
def Keeps (value : List Char) : Prop :=
  ∀ ending before rest, run (value ++ rest) (inLine ending (' ' :: before) none false .none) =
    run rest (inLine ending (value.reverse ++ ' ' :: before) none false .none)

theorem keeps_string {cs : List Char} (h : Inside cs) : Keeps ('"' :: (cs ++ ['"'])) := by
  intro ending before rest
  have hclean : Clean ('"' :: ' ' :: before) :=
    ⟨by simp, by simp, fun h => absurd (List.cons_prefix_cons.1
      (List.cons_prefix_cons.1 h).2).1 (by decide)⟩
  rw [List.cons_append, List.append_assoc, List.singleton_append, run_cons step_open,
    run_inside h hclean]
  simp

theorem run_plain : ∀ {cs : List Char}, (∀ c ∈ cs, IsPlain c) → ∀ before rest,
    run (cs ++ rest) (inLine ending before none false .none) =
      run rest (inLine ending (cs.reverse ++ before) none false .none)
  | [], _, _, _ => rfl
  | c :: cs, h, before, rest => by
    rw [List.cons_append, run_cons (step_plain (h c List.mem_cons_self)),
      run_plain fun d hd => h d (List.mem_cons_of_mem c hd)]
    simp

theorem keeps_word {cs : List Char} (h : ∀ c ∈ cs, IsPlain c) : Keeps cs :=
  fun _ _ rest => run_plain h _ rest

theorem run_key : ∀ {cs : List Char}, (∀ c ∈ cs, c ∈ keyChars) → ∀ before rest,
    run (cs ++ rest) (inLine ending before none false .inside) =
      run rest (inLine ending (cs.reverse ++ before) none false .inside)
  | [], _, _, _ => rfl
  | c :: cs, h, before, rest => by
    rw [List.cons_append, run_cons (step_key (h c List.mem_cons_self)),
      run_key fun d hd => h d (List.mem_cons_of_mem c hd)]
    simp

end Pass

/-- The line of an entry. -/
def entryLine (key value : List Char) : List Char :=
  key ++ ' ' :: '=' :: ' ' :: value

/-- A key and a value on one line. -/
structure OneLine (key value : List Char) : Prop where
  letters : ∀ c ∈ key, c ∈ Pass.keyChars
  keyed : key ≠ []
  keeps : Pass.Keeps value
  unbroken : Unbroken value

theorem Pass.run_entryLine {key value : List Char} (h : OneLine key value)
    (ending before rest : List Char) :
    run (entryLine key value ++ '\n' :: rest) (inLine ending before none true .none) =
      run rest (inLine ending ('\n' :: ((entryLine key value).reverse ++ before)) none true
        .none) := by
  obtain ⟨c, cs, rfl⟩ := List.exists_cons_of_ne_nil h.keyed
  rw [entryLine, List.append_assoc, List.cons_append,
    run_cons (step_first (h.letters c List.mem_cons_self)),
    run_key fun d hd => h.letters d (List.mem_cons_of_mem c hd)]
  simp only [List.cons_append]
  rw [run_cons step_space, run_cons step_equals, run_cons (step_plain (by decide)), h.keeps,
    run_cons step_feed]
  simp

theorem unbroken_entryLine {key value : List Char} (h : OneLine key value) :
    Unbroken (entryLine key value) := by
  have hbreak : ∀ c ∈ Pass.keyChars, ¬ IsBreak c := List.all_iff_forall_prop.1 (by decide)
  have hkey : Unbroken key := fun c hc => hbreak c (h.letters c hc)
  have hequals : Unbroken [' ', '=', ' '] := by decide
  exact List.forall_mem_append.2 ⟨hkey, List.forall_mem_append.2 ⟨hequals, h.unbroken⟩⟩

section

variable {entries : List (List Char × List Char)}

/-- The text of entries. -/
def entriesText (entries : List (List Char × List Char)) : List Char :=
  entries.flatMap fun e => entryLine e.1 e.2 ++ ['\n']

theorem Pass.run_entries (h : ∀ e ∈ entries, OneLine e.1 e.2) (ending before : List Char) :
    run (entriesText entries) (inLine ending before none true .none) =
      .ok (inLine ending ((entriesText entries).reverse ++ before) none true .none) := by
  induction entries generalizing before with
  | nil => rfl
  | cons e entries ih =>
    have hrest := ih fun e' he' => h e' (List.mem_cons_of_mem e he')
    simp only [entriesText] at hrest
    rw [entriesText, List.flatMap_cons, List.append_assoc, List.singleton_append,
      run_entryLine (h e List.mem_cons_self), hrest]
    simp

theorem splitAt_entriesText (h : ∀ e ∈ entries, OneLine e.1 e.2) :
    splitAt '\n' (entriesText entries) = entries.map (fun e => entryLine e.1 e.2) ++ [[]] := by
  induction entries with
  | nil => rfl
  | cons e entries ih =>
    have hrest := ih fun e' he' => h e' (List.mem_cons_of_mem e he')
    have hline : '\n' ∉ entryLine e.1 e.2 :=
      fun hmem => unbroken_entryLine (h e List.mem_cons_self) _ hmem (.inl rfl)
    simp only [entriesText] at hrest
    rw [entriesText, List.flatMap_cons, List.append_assoc, List.singleton_append, splitAt_append,
      splitAt_of_notMem hline, hrest]
    rfl

theorem notMem_entriesText (h : ∀ e ∈ entries, OneLine e.1 e.2) : '\r' ∉ entriesText entries := by
  intro hmem
  obtain ⟨e, he, hmem⟩ := List.mem_flatMap.1 hmem
  rcases List.mem_append.1 hmem with hmem | hmem
  · exact unbroken_entryLine (h e he) _ hmem (.inr rfl)
  · exact absurd hmem (by decide)

/-- Entries that stand on one line each are the lines of their text; an empty one follows. -/
theorem lines_entriesText (h : ∀ e ∈ entries, OneLine e.1 e.2) :
    lines (entriesText entries) = .ok (entries.map (fun e => entryLine e.1 e.2) ++ [[]]) := by
  rw [lines, Pass.start_eq, Pass.run_entries h]
  show Except.ok (splitAt '\n' ((entriesText entries).reverse ++ []).reverse) = _
  rw [List.append_nil, List.reverse_reverse, splitAt_entriesText h]

end

end TypedClient.Toml
