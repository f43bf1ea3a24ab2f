import TypedClient.Toml
import TypedClient.Proofs.Command.Saving
import TypedClient.Proofs.Lookup
import TypedClient.Proofs.Toml.Kept

/-!
# Entries as they are read

An entry with a plain key and a readable text or a truth value is read as it was written
(`readEntry_entryLine`), so entries of distinct names are read back from the text that is written
for them (`read_write`).
-/

namespace TypedClient

namespace Text

/-! ## Trimming -/

/-- A text without white space at its ends. -/
structure Trimmed (cs : List Char) : Prop where
  first : ∀ c, cs.head? = some c → isBlank c = false
  last : ∀ c, cs.getLast? = some c → isBlank c = false

theorem trim_of_trimmed {cs : List Char} (h : Trimmed cs) : trim cs = cs := by
  have hstart : trimStart cs = cs := by
    rcases cs with _ | ⟨c, cs⟩
    · rfl
    · simp [trimStart, h.first c rfl]
  rw [trim, hstart, trimEnd]
  rcases hrev : cs.reverse with _ | ⟨c, rest⟩
  · simp [List.reverse_eq_nil_iff.1 hrev]
  · have hlast : cs.getLast? = some c := by rw [List.getLast?_eq_head?_reverse, hrev]; rfl
    rw [List.dropWhile_cons_of_neg (by simp [h.last c hlast]), ← hrev, List.reverse_reverse]

theorem trim_cons {c : Char} (hc : isBlank c = true) (cs : List Char) :
    trim (c :: cs) = trim cs := by
  simp [trim, trimStart, hc]

theorem trim_concat {c : Char} (hc : isBlank c = true) {cs : List Char} (h : Trimmed cs)
    (hne : cs ≠ []) : trim (cs ++ [c]) = cs := by
  obtain ⟨d, ds, rfl⟩ := List.exists_cons_of_ne_nil hne
  have hstart : trimStart (d :: ds ++ [c]) = d :: ds ++ [c] := by simp [trimStart, h.first d rfl]
  have hends := trim_of_trimmed h
  have hstart' : trimStart (d :: ds) = d :: ds := by simp [trimStart, h.first d rfl]
  rw [trim, hstart'] at hends
  rw [trim, hstart, trimEnd, List.reverse_append, List.reverse_singleton, List.singleton_append,
    List.dropWhile_cons_of_pos hc]
  exact hends

/-! ## Pieces -/

theorem intercalate_splitAt (sep : Char) : ∀ cs : List Char, [sep].intercalate (splitAt sep cs) = cs
  | [] => rfl
  | c :: cs => by
    have ih := intercalate_splitAt sep cs
    rcases hrest : splitAt sep cs with _ | ⟨first, rest⟩
    · exact absurd hrest (splitAt_ne_nil _ _)
    rw [hrest] at ih
    rw [splitAt, hrest]
    split
    · rename_i hc
      rw [hc]
      simpa [List.intercalate] using ih
    · rcases rest with _ | ⟨next, rest⟩
      · simpa [List.intercalate] using ih
      · simpa [List.intercalate] using ih

end Text

namespace Toml

open Text

/-! ## Values -/

/-- How a value is written that is read back: a readable text, or a truth value. -/
inductive Written : Value → List Char → Prop
  | text {s : String} (h : Readable s.toList) :
      Written (.text s) ('"' :: (s.toList.flatMap (labelChar '"') ++ ['"']))
  | bool (b : Bool) : Written (.bool b) (if b then "true".toList else "false".toList)

variable {v : Value} {written key : List Char}

theorem Written.keeps (h : Written v written) : Pass.Keeps written := by
  cases h with
  | text h => exact Pass.keeps_string (inside_flatMap h.visible)
  | bool b => cases b <;> exact Pass.keeps_word (List.all_iff_forall_prop.1 (by decide))

theorem Written.unbroken (h : Written v written) : Unbroken written := by
  cases h with
  | text h =>
    have hquote : ¬ IsBreak '"' := by decide
    exact List.forall_mem_cons.2 ⟨hquote, List.forall_mem_append.2
      ⟨unbroken_of_inside (inside_flatMap h.visible), by simpa using hquote⟩⟩
  | bool b => cases b <;> decide

theorem Written.trimmed (h : Written v written) : Trimmed written := by
  cases h with
  | text h =>
    refine ⟨fun c hc => ?_, fun c hc => ?_⟩
    · cases hc
      decide
    · rw [← List.cons_append, List.getLast?_concat] at hc
      cases hc
      decide
  | bool b =>
    cases b <;> exact ⟨fun c hc => by cases hc; decide, fun c hc => by cases hc; decide⟩

theorem Written.ne_nil (h : Written v written) : written ≠ [] := by
  cases h with
  | text h => simp
  | bool b => cases b <;> decide

/-- A readable text or a truth value is read as it was written. -/
theorem Written.value (h : Written v written) (tidy : Bool) : value tidy written = .ok v := by
  cases h with
  | @text s h =>
    have hlower : ∀ cs, lowerAfter [] ('"' :: cs) = '"' :: lowerAfter ['"'] cs := fun _ => rfl
    have hword : ∀ word : String, word.toList.head? ≠ some '"' →
        lower (String.ofList ('"' :: (s.toList.flatMap (labelChar '"') ++ ['"']))) ≠ word := by
      rintro word hhead rfl
      simp [lower, hlower] at hhead
    have htrue := hword "true" (by decide)
    have hfalse := hword "false" (by decide)
    have hquote : isQuote '"' = true := rfl
    unfold Toml.value valueWithin
    simp only [htrue, hfalse, hquote, string_flatMap h, if_true]
    simp [Except.map]
  | bool b => cases b <;> rfl

theorem isContinued_of_ne {c : Char} (hc : c ≠ '"') (cs : List Char) :
    isContinued ('"' :: c :: cs) = .ok false := by
  have hopens : opensString ('"' :: c :: cs) = .ok false := by simp [opensString, isQuote, hc]
  unfold isContinued
  split
  · rfl
  · simpa using hopens

/-- A value on one line leaves no string open. -/
theorem Written.isContinued (h : Written v written) : isContinued written = .ok false := by
  cases h with
  | @text s h =>
    have hinside := inside_flatMap h.visible
    generalize s.toList.flatMap (labelChar '"') = body at hinside
    cases hinside with
    | nil => rfl
    | plain hquote => exact isContinued_of_ne hquote _
    | escape => exact isContinued_of_ne (by decide) _
  | bool b => cases b <;> rfl

/-! ## Entries -/

/-- A key without quotes and points. -/
structure IsKey (key : List Char) : Prop where
  letters : ∀ c ∈ key, c ∈ Pass.keyChars
  nonempty : key ≠ []

variable (hkey : IsKey key) (h : Written v written)

include hkey

theorem IsKey.notMem {c : Char} (hc : c ∉ Pass.keyChars) : c ∉ key :=
  fun hmem => hc (hkey.letters c hmem)

theorem IsKey.trimmed : Trimmed key := by
  have hblank : ∀ c ∈ Pass.keyChars, isBlank c = false :=
    List.all_iff_forall_prop.1 (by decide)
  exact ⟨fun c hc => hblank c (hkey.letters c (List.mem_of_mem_head? hc)),
    fun c hc => hblank c (hkey.letters c (List.mem_of_getLast? hc))⟩

theorem IsKey.keyPath : keyPath key = .ok ([], String.ofList key) := by
  have hpoint : key.contains '.' = false := by simpa using hkey.notMem (c := '.') (by decide)
  obtain ⟨c, cs, rfl⟩ := List.exists_cons_of_ne_nil hkey.nonempty
  have hquote : ∀ c ∈ Pass.keyChars, isQuote c = false :=
    List.all_iff_forall_prop.1 (by decide)
  unfold Toml.keyPath
  rw [hpoint, if_neg Bool.false_ne_true]
  simp [hquote c (hkey.letters c List.mem_cons_self)]

include h

theorem oneLine_of_written : OneLine key written :=
  ⟨hkey.letters, hkey.nonempty, h.keeps, h.unbroken⟩

/-- The first equals sign of an entry stands outside quotes. -/
theorem separatorNumber_entryLine :
    separatorNumber false ((quotedPieces (entryLine key written)).map (·.count '=')) = 1 := by
  have hpieces : ∃ first rest, quotedPieces (entryLine key written) = first :: rest ∧
      0 < first.count '=' := by
    cases h with
    | @text s h =>
      -- the line is cut at double quotes, and the first one opens the value
      have hdouble : '"' ∉ key ++ [' ', '=', ' '] := by
        simpa using hkey.notMem (c := '"') (by decide)
      have hsingle : (key ++ [' ', '=', ' ']).contains '\'' = false := by
        simpa using hkey.notMem (c := '\'') (by decide)
      generalize hbody : s.toList.flatMap (labelChar '"') ++ ['"'] = body
      have hline : entryLine key ('"' :: body) = (key ++ [' ', '=', ' ']) ++ '"' :: body := by
        simp [entryLine]
      rcases hrest : splitAt '"' body with _ | ⟨next, rest⟩
      · exact absurd hrest (splitAt_ne_nil _ _)
      refine ⟨key ++ [' ', '=', ' '], next :: rest, ?_, by simp⟩
      rw [hline, quotedPieces, splitAt_append, splitAt_of_notMem hdouble, hrest]
      simp only [List.singleton_append, hsingle, Bool.false_eq_true, if_false]
    | bool b =>
      have hequals : ∀ written, '=' ∈ entryLine key written := by simp [entryLine]
      refine ⟨entryLine key (if b then "true".toList else "false".toList), [], ?_,
        List.count_pos_iff.2 (hequals _)⟩
      have hquotes : ∀ c ∈ ['"', '\''],
          c ∉ entryLine key (if b then "true".toList else "false".toList) := by
        intro c hc
        have hkeyChars : ∀ c ∈ ['"', '\''], c ∉ Pass.keyChars :=
          List.all_iff_forall_prop.1 (by decide)
        have hrest : ∀ c ∈ ['"', '\''],
            c ∉ ' ' :: '=' :: ' ' :: (if b then "true".toList else "false".toList) := by
          cases b <;> exact List.all_iff_forall_prop.1 (by decide)
        rw [entryLine, List.mem_append, not_or]
        exact ⟨hkey.notMem (hkeyChars c hc), hrest c hc⟩
      rw [quotedPieces, splitAt_of_notMem (hquotes _ (by decide))]
      exact splitAt_of_notMem (hquotes _ (by decide))
  obtain ⟨first, rest, hpieces, hcount⟩ := hpieces
  rw [hpieces, List.map_cons, separatorNumber]
  simp [hcount]

theorem keyAndValue_entryLine :
    ∃ tidy, keyAndValue (entryLine key written) = .ok ⟨key, written, tidy⟩ := by
  have hequals : '=' ∉ key ++ [' '] := by simpa using hkey.notMem (c := '=') (by decide)
  have hline : entryLine key written = (key ++ [' ']) ++ '=' :: ' ' :: written := by
    simp [entryLine]
  have hpieces : splitAt '=' (entryLine key written) =
      (key ++ [' ']) :: splitAt '=' (' ' :: written) := by
    rw [hline, splitAt_append, splitAt_of_notMem hequals, List.singleton_append]
  have hcount : min (((key ++ [' ']) :: splitAt '=' (' ' :: written)).length - 1) 1 = 1 := by
    have hne := List.length_pos_of_ne_nil (splitAt_ne_nil '=' (' ' :: written))
    rw [List.length_cons]
    omega
  have hdigit : Option.any Decimal.isAsciiDigit (' ' :: written).head? = false := rfl
  have hone : ['='].intercalate [key ++ [' ']] = key ++ [' '] := by simp [List.intercalate]
  have hbegin : isValueStart (' ' :: written) = .ok true := rfl
  have htrimKey := trim_concat (c := ' ') rfl hkey.trimmed hkey.nonempty
  have htrimValue : trim (' ' :: written) = written := by
    rw [trim_cons rfl, trim_of_trimmed h.trimmed]
  refine ⟨isTidy (' ' :: written), ?_⟩
  unfold keyAndValue
  simp only [separatorNumber_entryLine hkey h, hpieces, hcount, List.take_succ_cons, List.take_zero,
    List.drop_one, List.tail_cons, intercalate_splitAt, hone, hdigit, Bool.false_eq_true, if_false,
    hbegin, htrimKey, htrimValue]
  rfl

/-- An entry under a new name is put into the table. -/
theorem readEntry_entryLine {es : List (Value × Value)}
    (hnew : Value.find? es (String.ofList key) = none) :
    readEntry value (.map es) (entryLine key written) =
      .ok (.map (es ++ [(.text (String.ofList key), v)]), none) := by
  obtain ⟨tidy, hcut⟩ := keyAndValue_entryLine hkey h
  have hdefine : define (String.ofList key) v (.map es) =
      .ok (.map (es ++ [(.text (String.ofList key), v)])) := by
    rw [define, hnew, Value.put_of_find?_eq_none hnew]
    rfl
  rw [readEntry, hcut]
  show (keyPath key >>= _) = _
  rw [hkey.keyPath]
  show (isContinued written >>= _) = _
  rw [h.isContinued]
  show (value tidy written >>= _) = _
  rw [h.value]
  show (define (String.ofList key) v (.map es) >>= _) = _
  rw [hdefine]
  rfl

theorem trimmed_entryLine : Trimmed (entryLine key written) := by
  have hkeyTrimmed := hkey.trimmed
  have hvalueTrimmed := h.trimmed
  constructor
  · intro c hc
    rw [entryLine, List.head?_append_of_ne_nil _ hkey.nonempty] at hc
    exact hkeyTrimmed.first c hc
  · intro c hc
    have hline : entryLine key written = (key ++ [' ', '=', ' ']) ++ written := by simp [entryLine]
    rw [hline, List.getLast?_append_of_ne_nil _ h.ne_nil] at hc
    exact hvalueTrimmed.last c hc

theorem step_entryLine {es : List (Value × Value)}
    (hnew : Value.find? es (String.ofList key) = none) :
    Reading.step ⟨⟨.map es, []⟩, [], none⟩ (entryLine key written) =
      .ok ⟨⟨.map (es ++ [(.text (String.ofList key), v)]), []⟩, [], none⟩ := by
  have hread := readEntry_entryLine hkey h hnew
  have hequals : (entryLine key written).contains '=' = true := by simp [entryLine]
  obtain ⟨c, cs, rfl⟩ := List.exists_cons_of_ne_nil hkey.nonempty
  have hbracket : ∀ c ∈ Pass.keyChars, c ≠ '[' ∧ c ≠ '\x7b' :=
    List.all_iff_forall_prop.1 (by decide)
  obtain ⟨hopen, hbrace⟩ := hbracket c (hkey.letters c List.mem_cons_self)
  show Reading.line _ (trim (entryLine (c :: cs) written)) = _
  rw [trim_of_trimmed (trimmed_entryLine hkey h)]
  rw [entryLine, List.cons_append] at hread hequals ⊢
  rw [Reading.line, if_neg hopen, if_neg hbrace, if_pos hequals]
  show (readEntry value (.map es) _ >>= _) = _
  rw [hread]
  rfl

omit hkey h

/-! ## Texts -/

/-- An entry and how its key and its value are written. -/
structure WrittenEntry (e : Value × Value) (l : List Char × List Char) : Prop where
  name : e.1 = .text (String.ofList l.1)
  key : IsKey l.1
  value : Written e.2 l.2

theorem writtenEntry (key : String) (hletters : key.toList.all (· ∈ Pass.keyChars) = true)
    (hnonempty : key ≠ "") (h : Written v written) :
    WrittenEntry (.text key, v) (key.toList, written) where
  name := by rw [String.ofList_toList]
  key := ⟨fun c hc => of_decide_eq_true (List.all_eq_true.1 hletters c hc),
    by simpa using hnonempty⟩
  value := h

variable {e : Value × Value} {entries es : List (Value × Value)} {l : List Char × List Char}
  {ls : List (List Char × List Char)}

/-- Entries are put into the table one after another. -/
theorem foldlM_step (h : List.Forall₂ WrittenEntry entries ls)
    (hnodup : ((es ++ entries).map (·.1)).Nodup) :
    (ls.map (fun l : List Char × List Char => entryLine l.1 l.2) ++ [[]]).foldlM Reading.step
        ⟨⟨.map es, []⟩, [], none⟩ =
      .ok ⟨⟨.map (es ++ entries), []⟩, [], none⟩ := by
  -- for every table so far, since an entry is put into it before the next one is read
  induction h generalizing es with
  | nil =>
    rw [List.append_nil]
    rfl
  | @cons e l entries ls he h ih =>
    obtain ⟨k, v⟩ := e
    obtain rfl : k = .text (String.ofList l.1) := he.name
    have hnew : Value.find? es (String.ofList l.1) = none := by
      rw [Option.eq_none_iff_forall_not_mem]
      intro w hw
      rw [List.map_append, List.nodup_append] at hnodup
      exact hnodup.2.2 _ (List.mem_map_of_mem (f := Prod.fst) (Value.mem_of_find? hw)) _
        List.mem_cons_self rfl
    rw [List.map_cons, List.cons_append, List.foldlM_cons, step_entryLine he.key he.value hnew]
    show List.foldlM Reading.step _ _ = _
    rw [ih (by simpa using hnodup)]
    simp

theorem WrittenEntry.oneLine (h : WrittenEntry e l) : OneLine l.1 l.2 :=
  oneLine_of_written h.key h.value

theorem oneLine_of_forall₂ (h : List.Forall₂ WrittenEntry entries ls) :
    ∀ l ∈ ls, OneLine l.1 l.2 :=
  ((List.forall₂_and_left _ _).1 (h.flip.imp fun _ _ he => ⟨he.oneLine, he⟩)).1

theorem read_entriesText (h : List.Forall₂ WrittenEntry entries ls)
    (hnodup : (entries.map (·.1)).Nodup) : read (String.ofList (entriesText ls)) = .ok entries := by
  rw [read, String.toList_ofList, lines_entriesText (oneLine_of_forall₂ h)]
  show (List.foldlM Reading.step ⟨⟨.map [], []⟩, [], none⟩ _ >>= _) = _
  rw [foldlM_step h (by simpa using hnodup)]
  rfl

theorem IsKey.nameText (hkey : IsKey key) :
    nameText (String.ofList key) = .ok (String.ofList key) := by
  have hbare : ∀ c ∈ Pass.keyChars, (c.isAlphanum || c = '_' || c = '-') = true :=
    List.all_iff_forall_prop.1 (by decide)
  have hall : key.all (fun c => c.isAlphanum || c = '_' || c = '-') = true :=
    List.all_eq_true.2 fun c hc => hbare c (hkey.letters c hc)
  have hempty : (String.ofList key).isEmpty = false := by simpa using hkey.nonempty
  rw [Toml.nameText, String.toList_ofList, hall, hempty]
  rfl

theorem Written.valueText (h : Written v written) : valueText v = .ok (String.ofList written) := by
  cases h with
  | text h => exact quoted_of_readable h
  | bool b => cases b <;> rfl

theorem entryText_eq (h : WrittenEntry e l) :
    entryText e.1 e.2 = .ok (String.ofList (entryLine l.1 l.2 ++ ['\n'])) := by
  obtain ⟨k, v⟩ := e
  obtain ⟨key, written⟩ := l
  obtain ⟨hname, hkey, hvalue⟩ := h
  obtain rfl : k = .text (String.ofList key) := hname
  have hline : entryText (.text (String.ofList key)) v = (do
      let name ← nameText (String.ofList key)
      let text ← Toml.valueText v
      return name ++ " = " ++ text ++ "\n") := by
    cases hvalue <;> rfl
  show entryText (.text (String.ofList key)) v = _
  rw [hline, hkey.nameText, hvalue.valueText]
  refine congrArg Except.ok (String.toList_injective ?_)
  simp [entryLine]

theorem Written.onLine (h : Written v written) : OnLine v := by
  cases h <;> trivial

theorem write_eq (h : List.Forall₂ WrittenEntry entries ls) :
    write entries = .ok (String.ofList (entriesText ls)) := by
  have honLine : ∀ e ∈ entries, OnLine e.2 :=
    ((List.forall₂_and_left _ _).1 (h.imp fun _ _ he => ⟨he.value.onLine, he⟩)).1
  have hlines : entries.mapM (fun e => entryText e.1 e.2) =
      .ok (ls.map fun l => String.ofList (entryLine l.1 l.2 ++ ['\n'])) := by
    rw [mapM_eq_ok_iff, List.forall₂_map_right_iff]
    exact h.imp fun _ _ he => entryText_eq he
  rw [write, sectionOf_onLine honLine, hlines]
  show Except.ok _ = Except.ok _
  refine congrArg Except.ok (String.toList_injective ?_)
  simp [entriesText, List.flatMap_def, Function.comp_def]

/-- Entries of distinct names are read as they were written, and their text has no line break that
reading it from a file would change. -/
theorem read_write (h : List.Forall₂ WrittenEntry entries ls) (hnodup : (entries.map (·.1)).Nodup) :
    ∃ text, write entries = .ok text ∧ '\r' ∉ text.toList ∧ read text = .ok entries := by
  refine ⟨_, write_eq h, ?_, read_entriesText h hnodup⟩
  rw [String.toList_ofList]
  exact notMem_entriesText (oneLine_of_forall₂ h)

end Toml

end TypedClient
