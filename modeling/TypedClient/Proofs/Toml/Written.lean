import Mathlib.Data.List.Infix
import TypedClient.Toml.Printer
import TypedClient.Toml.Scalar

/-!
# Strings as they are written

A text is written between double quotes, each of its characters as in a label between such quotes
(`quoted_of_readable`), unless it has a mark of two hexadecimal digits. What is written is a row of
characters that stand for themselves and of backslashes with a letter (`Inside`).
-/

namespace TypedClient.Toml

open Text

/-! ## Pairs of characters -/

/-- A character that does not begin a pair is a part of the piece. -/
theorem splitAtPair_cons {a b c : Char} {cs first : List Char} {rest : List (List Char)}
    (hpair : ¬ (c = a ∧ cs.head? = some b)) (h : splitAtPair a b cs = first :: rest) :
    splitAtPair a b (c :: cs) = (c :: first) :: rest := by
  rcases cs with _ | ⟨d, cs⟩
  · cases h
    rfl
  · have hcond : ¬ (c = a && d = b) = true := by simpa using hpair
    rw [splitAtPair, if_neg hcond, h]

theorem splitAtPair_ne_nil (a b : Char) (cs : List Char) : splitAtPair a b cs ≠ [] := by
  fun_cases splitAtPair a b cs <;> simp_all

theorem splitAtPair_self (a b : Char) (cs : List Char) :
    splitAtPair a b (a :: b :: cs) = [] :: splitAtPair a b cs := by
  simp [splitAtPair]

/-! ## Characters -/

/-- A character that is not written with two hexadecimal digits. -/
def Visible (c : Char) : Prop :=
  isPrintable c = true ∨ 0x100 ≤ c.toNat ∨ c ∈ ['\n', '\r', '\t']

theorem mem_hex {c : Char} : ∀ {width n : Nat}, c ∈ hex width n → c ∈ "0123456789abcdef".toList
  | 0, _, h => by cases h
  | width + 1, n, h => by
    rcases List.mem_append.1 h with h | h
    · exact mem_hex h
    · have hdigit : ∀ d < 16, Nat.digitChar d ∈ "0123456789abcdef".toList := by decide
      rw [List.mem_singleton.1 h]
      exact hdigit _ (Nat.mod_lt _ (by decide))

theorem ne_of_mem_hex {c d : Char} {width n : Nat} (h : c ∈ hex width n)
    (hd : d ∉ "0123456789abcdef".toList) : c ≠ d := by
  rintro rfl
  exact hd (mem_hex h)

theorem length_hex : ∀ width n : Nat, (hex width n).length = width
  | 0, _ => rfl
  | width + 1, n => by rw [hex, List.length_append, length_hex width, List.length_singleton]

/-- A letter that stands for one character behind a backslash. -/
structure IsLetter (e c : Char) : Prop where
  lookup : escapes.lookup e = some c
  slash : e ≠ '\\'
  single : e ≠ '\''
  mark : e ≠ 'x' ∧ e ≠ 'u' ∧ e ≠ 'U'
  break_ : e ≠ '\n' ∧ e ≠ '\r'
  quote : e = '"' → c = '"'

theorem isLetter_of_mem_escapes {e c : Char} (h : (e, c) ∈ escapes) : IsLetter e c := by
  simp only [escapes, List.mem_cons, Prod.mk.injEq, List.not_mem_nil, or_false] at h
  rcases h with ⟨rfl, rfl⟩ | ⟨rfl, rfl⟩ | ⟨rfl, rfl⟩ | ⟨rfl, rfl⟩ | ⟨rfl, rfl⟩ | ⟨rfl, rfl⟩ |
    ⟨rfl, rfl⟩ <;> exact ⟨by decide, by decide, by decide, by decide, by decide, by decide⟩

/-- How a visible character is written between double quotes. -/
inductive Shown (c : Char) : List Char → Prop
  | plain (hquote : c ≠ '"') (hslash : c ≠ '\\') (hfeed : c ≠ '\n') (hreturn : c ≠ '\r') :
      Shown c [c]
  | escape {e : Char} (he : (e, c) ∈ escapes) : Shown c ['\\', e]
  | backslash (h : c = '\\') : Shown c ['\\', '\\']
  | short (hhidden : isPrintable c = false) (hlow : 0x100 ≤ c.toNat) (hhigh : c.toNat < 0x10000) :
      Shown c ('\\' :: 'u' :: hex 4 c.toNat)
  | long (hhidden : isPrintable c = false) (hlow : 0x10000 ≤ c.toNat) :
      Shown c ('\\' :: 'U' :: hex 8 c.toNat)

theorem shown_labelChar {c : Char} (h : Visible c) : Shown c (labelChar '"' c) := by
  unfold labelChar
  split
  · rename_i hspecial
    rw [Bool.or_eq_true, decide_eq_true_eq, decide_eq_true_eq] at hspecial
    rcases hspecial with rfl | rfl
    · exact .escape (by decide)
    · exact .backslash rfl
  rename_i hspecial
  rw [Bool.or_eq_true, decide_eq_true_eq, decide_eq_true_eq, not_or] at hspecial
  split
  · rename_i heq
    exact .escape (by rw [heq]; decide)
  split
  · rename_i heq
    exact .escape (by rw [heq]; decide)
  split
  · rename_i heq
    exact .escape (by rw [heq]; decide)
  rename_i hfeed hreturn htab
  split
  · exact .plain hspecial.1 hspecial.2 hfeed hreturn
  rename_i hhidden
  rw [Bool.not_eq_true] at hhidden
  have hlow : 0x100 ≤ c.toNat := by
    rcases h with h | h | h
    · rw [hhidden] at h
      cases h
    · exact h
    · simp [hfeed, hreturn, htab] at h
  rw [if_neg (by omega)]
  split
  · exact .short hhidden hlow (by omega)
  · exact .long hhidden (by omega)

theorem Shown.ne_nil {c : Char} {shown : List Char} (h : Shown c shown) : shown ≠ [] := by
  cases h <;> simp

/-- Only a character that stands for itself is written with itself in front. -/
theorem Shown.eq_of_head? {c d : Char} {shown : List Char} (h : Shown c shown)
    (hhead : shown.head? = some d) (hd : d ≠ '\\') : c = d := by
  cases h with
  | plain => exact Option.some_inj.1 hhead
  | _ => exact absurd (Option.some_inj.1 hhead).symm hd

theorem head?_flatMap {f : Char → List Char} {cs tail : List Char}
    (hshown : ∀ c ∈ cs, Shown c (f c)) {d : Char} (hd : d ≠ '\\')
    (hhead : (cs.flatMap f ++ tail).head? = some d) :
    cs.head? = some d ∨ cs = [] ∧ tail.head? = some d := by
  rcases cs with _ | ⟨c, cs⟩
  · exact .inr ⟨rfl, hhead⟩
  · have hc := hshown c List.mem_cons_self
    rw [List.flatMap_cons, List.append_assoc, List.head?_append_of_ne_nil _ hc.ne_nil] at hhead
    exact .inl (congrArg some (hc.eq_of_head? hhead hd))

/-! ## Texts -/

/-- Texts that are read as they were written: without characters or pairs that look like a mark of
two hexadecimal digits, without a pair that looks like the mark of a character and follows one, and
with at most one double quote in front. -/
structure Readable (cs : List Char) : Prop where
  visible : ∀ c ∈ cs, Visible c
  unmarked : ¬ ['\\', 'x'] <:+: cs
  short : ∀ before c after, cs = before ++ c :: after → isPrintable c = false →
    0x100 ≤ c.toNat → c.toNat < 0x10000 → ¬ ['\\', 'u'] <:+: after
  long : ∀ before c after, cs = before ++ c :: after → isPrintable c = false →
    0x10000 ≤ c.toNat → ¬ ['\\', 'U'] <:+: after
  quotes : cs ≠ ['"'] ∧ ¬ ['"', '"'] <+: cs

/-- Characters from space to tilde without a backslash and without double quotes. -/
theorem readable_of_ascii {cs : List Char}
    (h : ∀ c ∈ cs, (0x20 ≤ c.toNat ∧ c.toNat < 0x7f) ∧ c ≠ '\\' ∧ c ≠ '"') : Readable cs where
  visible := fun c hc => .inl (by simp [isPrintable, (h c hc).1])
  unmarked := fun hmark => (h _ (hmark.subset List.mem_cons_self)).2.1 rfl
  short := fun before c after hcs _ hlow => by
    have hascii := (h c (by simp [hcs])).1
    omega
  long := fun before c after hcs _ hlow => by
    have hascii := (h c (by simp [hcs])).1
    omega
  quotes := by
    refine ⟨?_, fun hquote => (h _ (hquote.subset List.mem_cons_self)).2.2 rfl⟩
    rintro rfl
    exact (h _ List.mem_cons_self).2.2 rfl

theorem exchangeQuotes_backslash {rest : List Char} (h : rest.head? ≠ some '\'') :
    exchangeQuotes ('\\' :: rest) = '\\' :: exchangeQuotes rest := by
  rcases rest with _ | ⟨c, rest⟩
  · rfl
  · have hc : c ≠ '\'' := by simpa using h
    rw [exchangeQuotes]
    · simp [hc]
    · decide

theorem exchangeQuotes_append : ∀ {cs : List Char}, (∀ c ∈ cs, c ≠ '"' ∧ c ≠ '\\') →
    ∀ rest, exchangeQuotes (cs ++ rest) = cs ++ exchangeQuotes rest
  | [], _, _ => rfl
  | c :: cs, h, rest => by
    have hc := h c List.mem_cons_self
    rw [List.cons_append, exchangeQuotes, exchangeQuotes_append
      (fun d hd => h d (List.mem_cons_of_mem c hd)), List.cons_append]
    · intro _ heq
      exact absurd heq hc.2
    · exact hc.1

/-- A character that is no quote and no backslash is written alike between all quotes. -/
theorem labelChar_congr {c : Char} (hsingle : c ≠ '\'') (hdouble : c ≠ '"') :
    labelChar '\'' c = labelChar '"' c := by
  simp [labelChar, hsingle, hdouble]

/-- A character is written with a backslash in front, or as it is and is no quote. -/
theorem labelChar_eq_cons (quote c : Char) : (∃ rest, labelChar quote c = '\\' :: rest) ∨
    labelChar quote c = [c] ∧ c ≠ quote := by
  unfold labelChar
  split
  · exact .inl ⟨_, rfl⟩
  rename_i hspecial
  rw [Bool.or_eq_true, decide_eq_true_eq, decide_eq_true_eq, not_or] at hspecial
  split
  · exact .inl ⟨_, rfl⟩
  split
  · exact .inl ⟨_, rfl⟩
  split
  · exact .inl ⟨_, rfl⟩
  split
  · exact .inr ⟨rfl, hspecial.1⟩
  split
  · exact .inl ⟨_, rfl⟩
  split <;> exact .inl ⟨_, rfl⟩

theorem head?_flatMap_labelChar_ne (cs : List Char) :
    (cs.flatMap (labelChar '\'')).head? ≠ some '\'' := by
  rcases cs with _ | ⟨c, cs⟩
  · simp
  rw [List.flatMap_cons]
  rcases labelChar_eq_cons '\'' c with ⟨rest, h⟩ | ⟨h, hne⟩
  · simp [h]
  · simp [h, hne]

theorem exchangeQuotes_shown {c : Char} {shown rest : List Char} (h : Shown c shown) (hc : c ≠ '"')
    (hrest : rest.head? ≠ some '\'') :
    exchangeQuotes (shown ++ rest) = shown ++ exchangeQuotes rest := by
  have hmark : ∀ e ds, (e = 'u' ∨ e = 'U') → (∀ d ∈ ds, d ∈ "0123456789abcdef".toList) →
      exchangeQuotes ('\\' :: e :: ds ++ rest) = '\\' :: e :: ds ++ exchangeQuotes rest := by
    intro e ds he hds
    have hplain : ∀ d ∈ e :: ds, d ≠ '"' ∧ d ≠ '\\' := by
      intro d hd
      rcases List.mem_cons.1 hd with rfl | hd
      · rcases he with rfl | rfl <;> decide
      · exact ⟨by rintro rfl; exact absurd (hds _ hd) (by decide),
          by rintro rfl; exact absurd (hds _ hd) (by decide)⟩
    have hfirst : (e :: ds ++ rest).head? ≠ some '\'' := by
      rcases he with rfl | rfl <;> simp
    rw [List.cons_append, exchangeQuotes_backslash hfirst, exchangeQuotes_append hplain]
    rfl
  cases h with
  | plain hquote hslash => exact exchangeQuotes_append (by simp [hquote, hslash]) rest
  | @escape e he =>
    have hletter := isLetter_of_mem_escapes he
    have hquote : e ≠ '"' := fun heq => hc (hletter.quote heq)
    rw [List.cons_append, exchangeQuotes_backslash (by simpa using hletter.single),
      exchangeQuotes_append (by simp [hquote, hletter.slash])]
    rfl
  | backslash =>
    rw [List.cons_append, exchangeQuotes_backslash (by simp), List.singleton_append,
      exchangeQuotes_backslash hrest]
    rfl
  | short => exact hmark 'u' _ (.inl rfl) fun _ => mem_hex
  | long => exact hmark 'U' _ (.inr rfl) fun _ => mem_hex

/-- Exchanging the quotes in a label between single quotes gives the label between double ones. -/
theorem exchangeQuotes_flatMap : ∀ {cs : List Char}, (∀ c ∈ cs, Visible c) →
    exchangeQuotes (cs.flatMap (labelChar '\'')) = cs.flatMap (labelChar '"')
  | [], _ => rfl
  | c :: cs, h => by
    have ih := exchangeQuotes_flatMap fun d hd => h d (List.mem_cons_of_mem c hd)
    rw [List.flatMap_cons, List.flatMap_cons, ← ih]
    by_cases hsingle : c = '\''
    · subst hsingle
      have hquote : labelChar '"' '\'' = ['\''] := by decide
      rw [hquote]
      simp [labelChar, exchangeQuotes]
    by_cases hdouble : c = '"'
    · subst hdouble
      have hquote : labelChar '\'' '"' = ['"'] := by decide
      rw [hquote]
      simp [labelChar, exchangeQuotes]
    rw [labelChar_congr hsingle hdouble]
    have hshown := shown_labelChar (h c List.mem_cons_self)
    exact exchangeQuotes_shown hshown hdouble (head?_flatMap_labelChar_ne cs)

/-! ## The inside of a string -/

/-- A character that ends a line. -/
def IsBreak (c : Char) : Prop := c = '\n' ∨ c = '\r'

instance : DecidablePred IsBreak :=
  fun c => inferInstanceAs (Decidable (c = '\n' ∨ c = '\r'))

/-- A text without the end of a line. -/
def Unbroken (cs : List Char) : Prop := ∀ c ∈ cs, ¬ IsBreak c

instance (cs : List Char) : Decidable (Unbroken cs) :=
  List.decidableBAll (fun c => ¬ IsBreak c) cs

/-- What stands between the quotes of a string: characters that stand for themselves, and
backslashes with a letter after them. -/
inductive Inside : List Char → Prop
  | nil : Inside []
  | plain {c : Char} {cs : List Char} (hquote : c ≠ '"') (hslash : c ≠ '\\')
      (hbreak : ¬ IsBreak c) (h : Inside cs) : Inside (c :: cs)
  | escape {e : Char} {cs : List Char}
      (he : (escapes.lookup e).isSome ∨ e = 'u' ∨ e = 'U' ∨ e = '\\') (h : Inside cs) :
      Inside ('\\' :: e :: cs)

theorem inside_append {ds : List Char} (hds : ∀ d ∈ ds, d ≠ '"' ∧ d ≠ '\\' ∧ ¬ IsBreak d)
    {cs : List Char} (h : Inside cs) : Inside (ds ++ cs) := by
  induction ds with
  | nil => exact h
  | cons d ds ih =>
    obtain ⟨hquote, hslash, hbreak⟩ := hds d List.mem_cons_self
    exact .plain hquote hslash hbreak (ih fun d' hd' => hds d' (List.mem_cons_of_mem d hd'))

theorem inside_hex (width n : Nat) {cs : List Char} (h : Inside cs) : Inside (hex width n ++ cs) :=
  inside_append (fun _ hd => ⟨ne_of_mem_hex hd (by decide), ne_of_mem_hex hd (by decide),
    not_or.2 ⟨ne_of_mem_hex hd (by decide), ne_of_mem_hex hd (by decide)⟩⟩) h

theorem Shown.inside {c : Char} {shown cs : List Char} (h : Shown c shown) (hcs : Inside cs) :
    Inside (shown ++ cs) := by
  cases h with
  | plain hquote hslash hfeed hreturn =>
    exact .plain hquote hslash (not_or.2 ⟨hfeed, hreturn⟩) hcs
  | escape he => exact .escape (.inl (by simp [(isLetter_of_mem_escapes he).lookup])) hcs
  | backslash => exact .escape (.inr (.inr (.inr rfl))) hcs
  | short => exact .escape (.inr (.inl rfl)) (inside_hex _ _ hcs)
  | long => exact .escape (.inr (.inr (.inl rfl))) (inside_hex _ _ hcs)

theorem inside_flatMap : ∀ {cs : List Char}, (∀ c ∈ cs, Visible c) →
    Inside (cs.flatMap (labelChar '"'))
  | [], _ => .nil
  | c :: cs, h => by
    rw [List.flatMap_cons]
    exact (shown_labelChar (h c List.mem_cons_self)).inside
      (inside_flatMap fun d hd => h d (List.mem_cons_of_mem c hd))

theorem unbroken_of_inside {cs : List Char} (h : Inside cs) : Unbroken cs := by
  induction h with
  | nil => nofun
  | plain hquote hslash hbreak h ih => exact List.forall_mem_cons.2 ⟨hbreak, ih⟩
  | @escape e cs he h ih =>
    have hbreak : ¬ IsBreak e := by
      rintro (rfl | rfl) <;> exact absurd he (by decide)
    exact List.forall_mem_cons.2 ⟨by decide, List.forall_mem_cons.2 ⟨hbreak, ih⟩⟩

/-! ## The string that is written -/

theorem splitAtPair_append {a b : Char} {ds cs first : List Char} {rest : List (List Char)}
    (hds : a ∉ ds) (h : splitAtPair a b cs = first :: rest) :
    splitAtPair a b (ds ++ cs) = (ds ++ first) :: rest := by
  induction ds with
  | nil => exact h
  | cons d ds ih =>
    rw [List.mem_cons, not_or] at hds
    exact splitAtPair_cons (fun hpair => hds.1 hpair.1.symm) (ih hds.2)

/-- A character that is not written with a mark is a part of the piece between marks. -/
theorem Shown.splitAtPair_shown {c letter : Char} {shown tail first : List Char}
    {rest : List (List Char)} (hshown : Shown c shown) (hmark : shown.tail.head? ≠ some letter)
    (hpair : c = '\\' → tail.head? ≠ some letter)
    (h : splitAtPair '\\' letter tail = first :: rest) :
    splitAtPair '\\' letter (shown ++ tail) = (shown ++ first) :: rest := by
  have hwide : ∀ e ds, e ≠ '\\' → '\\' ∉ ds → e ≠ letter →
      splitAtPair '\\' letter ('\\' :: e :: ds ++ tail) = ('\\' :: e :: ds ++ first) :: rest := by
    intro e ds hslash hds he
    have hplain : '\\' ∉ e :: ds := by simp [Ne.symm hslash, hds]
    exact splitAtPair_cons (by simp [he]) (splitAtPair_append hplain h)
  have hhex : ∀ width n : Nat, '\\' ∉ hex width n :=
    fun _ _ hmem => ne_of_mem_hex hmem (by decide) rfl
  cases hshown with
  | plain hquote hslash => exact splitAtPair_append (by simpa using Ne.symm hslash) h
  | escape he =>
    exact hwide _ [] (isLetter_of_mem_escapes he).slash (by simp) (by simpa using hmark)
  | backslash hc =>
    exact splitAtPair_cons (by simpa using hmark) (splitAtPair_cons (by simpa using hpair hc) h)
  | short => exact hwide 'u' _ (by decide) (hhex 4 _) (by simpa using hmark)
  | long => exact hwide 'U' _ (by decide) (hhex 8 _) (by simpa using hmark)

theorem Shown.notMark {c : Char} {shown : List Char} (h : Shown c shown) :
    shown.tail.head? ≠ some 'x' := by
  cases h with
  | escape he => simpa using (isLetter_of_mem_escapes he).mark.1
  | _ => simp

/-- Without a mark of two hexadecimal digits in the text, what is written is one piece. -/
theorem splitAtPair_flatMap : ∀ {cs : List Char}, (∀ c ∈ cs, Visible c) → ¬ ['\\', 'x'] <:+: cs →
    splitAtPair '\\' 'x' (cs.flatMap (labelChar '"')) = [cs.flatMap (labelChar '"')]
  | [], _, _ => rfl
  | c :: cs, hvisible, hmark => by
    rw [not_pair_infix_cons] at hmark
    have htail := fun d hd => hvisible d (List.mem_cons_of_mem c hd)
    have hshown := shown_labelChar (hvisible c List.mem_cons_self)
    have hpair : c = '\\' → (cs.flatMap (labelChar '"')).head? ≠ some 'x' := by
      intro hc hhead
      rw [← List.append_nil (List.flatMap _ _)] at hhead
      rcases head?_flatMap (fun d hd => shown_labelChar (htail d hd)) (by decide) hhead with
        hhead | ⟨-, hhead⟩
      · exact hmark.1 ⟨hc, hhead⟩
      · cases hhead
    rw [List.flatMap_cons]
    exact hshown.splitAtPair_shown hshown.notMark hpair (splitAtPair_flatMap htail hmark.2)

theorem quoted_of_readable {text : String} (h : Readable text.toList) :
    quoted text = .ok (String.ofList ('"' :: (text.toList.flatMap (labelChar '"') ++ ['"']))) := by
  have hbody : (if labelQuote text.toList = '\'' then
      exchangeQuotes (text.toList.flatMap (labelChar (labelQuote text.toList)))
      else text.toList.flatMap (labelChar (labelQuote text.toList))) =
        text.toList.flatMap (labelChar '"') := by
    split
    · rename_i hquote
      rw [hquote, exchangeQuotes_flatMap h.visible]
    · rename_i hquote
      have hdouble : labelQuote text.toList = '"' := by
        unfold labelQuote at hquote ⊢
        split at hquote
        · rename_i hcond
          rw [if_pos hcond]
        · exact absurd rfl hquote
      rw [hdouble]
  unfold quoted
  simp only [hbody, splitAtPair_flatMap h.visible h.unmarked]
  rfl

end TypedClient.Toml
