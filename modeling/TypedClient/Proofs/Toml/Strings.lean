import Mathlib.Algebra.Group.Nat.Defs
import Mathlib.Data.Bool.AllAny
import TypedClient.Proofs.Toml.Written
import TypedClient.Proofs.Failure.Outcome

/-!
# Strings as they are read

Reading undoes writing step by step. The marks of characters are resolved, those of four digits
before those of eight (`resolveCodePoints_flatMap`); then the letters behind backslashes
(`unescape_flatMap`); then the quotes are cut off. A readable text comes back (`string_flatMap`).
-/

namespace TypedClient.Toml

open Text

/-! ## Hexadecimal digits -/

theorem digitValue?_hexDigit (n : Nat) : Decimal.digitValue? (hexDigit n) = some (n % 16) := by
  have hdigit : ∀ d < 16, Decimal.digitValue? (Nat.digitChar d) = some d := by decide
  exact hdigit _ (Nat.mod_lt n (by decide))

theorem mapM_hex : ∀ width n : Nat, ∃ ds,
    ((hex width n).mapM fun c => (Decimal.digitValue? c).filter (· < 16)) = some ds ∧
      Decimal.ofDigits 16 ds = n % 16 ^ width
  | 0, n => ⟨[], rfl, by simp [Decimal.ofDigits, Nat.mod_one]⟩
  | width + 1, n => by
    obtain ⟨ds, hds, hvalue⟩ := mapM_hex width (n / 16)
    have hlast : Option.filter (· < 16) (Decimal.digitValue? (hexDigit n)) = some (n % 16) := by
      simp [digitValue?_hexDigit, Nat.mod_lt]
    refine ⟨ds ++ [n % 16], ?_, ?_⟩
    · rw [hex, List.mapM_append, hds]
      simp [hlast]
    · rw [Decimal.ofDigits, List.foldl_append, ← Decimal.ofDigits, hvalue, Nat.pow_succ',
        Nat.mod_mul]
      simp [Nat.add_comm]

theorem natOf?_hex {width n : Nat} (hwidth : width ≠ 0) (hn : n < 16 ^ width) :
    Decimal.natOf? 16 (hex width n) = some n := by
  obtain ⟨ds, hds, hvalue⟩ := mapM_hex width n
  have hne : (hex width n).isEmpty = false := by
    rw [List.isEmpty_eq_false_iff]
    intro h
    have hlength := length_hex width n
    rw [h] at hlength
    exact hwidth hlength.symm
  rw [Decimal.natOf?, hne, if_neg Bool.false_ne_true, hds, Option.map_some, hvalue,
    Nat.mod_eq_of_lt hn]

theorem map_toLower_hex (width n : Nat) : (hex width n).map Char.toLower = hex width n := by
  have hdigit : ∀ c ∈ "0123456789abcdef".toList, c.toLower = c :=
    List.all_iff_forall_prop.1 (by decide)
  rw [List.map_congr_left fun c hc => hdigit c (mem_hex hc), List.map_id']

/-- The digits of a character denote it, since the digits of a surrogate are not among them. -/
theorem codePoint_of_first {c first : Char} {rest : List Char} (width : Nat)
    (hdigits : hex width c.toNat = first :: rest) (hlow : c.toNat < 16 ^ width) (hrest : rest ≠ [])
    (hfirst : first = 'd' → (rest.head?.any fun d => !('0' ≤ d && d ≤ '7')) = false) :
    codePoint (hex width c.toNat) = .ok c := by
  have hwidth : width ≠ 0 := by
    rintro rfl
    cases hdigits
  have hvalue := natOf?_hex hwidth hlow
  have hchar : c.toNat < 0x110000 := by
    have := toNat_lt_or c
    omega
  have hempty : rest.isEmpty = false := by simpa using hrest
  have hsurrogate : (decide (first = 'd') && rest.head?.any fun d => !('0' ≤ d && d ≤ '7')) =
      false := by
    by_cases hd : first = 'd'
    · rw [hfirst hd, Bool.and_false]
    · simp [hd]
  rw [hdigits] at hvalue ⊢
  unfold codePoint
  simp only [hvalue, hempty, hsurrogate, isSurrogate_toNat, Bool.and_false, Bool.false_eq_true,
    if_false, if_pos hchar, Char.ofNat_toNat]

theorem codePoint_short {c : Char} (h : c.toNat < 0x10000) :
    codePoint ((hex 4 c.toNat).map Char.toLower) = .ok c := by
  rw [map_toLower_hex]
  refine codePoint_of_first 4 rfl h (by simp) fun hfirst => ?_
  have hd : ∀ d < 16, Nat.digitChar d = 'd' → d = 13 := by decide
  have hsmall : ∀ d < 8, (!('0' ≤ Nat.digitChar d && Nat.digitChar d ≤ '7')) = false := by decide
  have hhigh := hd _ (Nat.mod_lt _ (by decide)) hfirst
  have hrange := toNat_lt_or c
  exact hsmall _ (by omega)

theorem codePoint_long (c : Char) : codePoint ((hex 8 c.toNat).map Char.toLower) = .ok c := by
  rw [map_toLower_hex]
  have hrange := toNat_lt_or c
  refine codePoint_of_first 8 rfl (by omega) (by simp) fun hfirst => ?_
  have hd : ∀ d < 16, Nat.digitChar d = 'd' → d = 13 := by decide
  have hhigh := hd _ (Nat.mod_lt _ (by decide)) hfirst
  omega

/-! ## Backslashes at the end -/

theorem endsEscaping_append {front : List Char} (h : endsEscaping front = false) (cs : List Char) :
    endsEscaping (front ++ cs) = endsEscaping cs := by
  unfold endsEscaping at h ⊢
  rw [List.reverse_append, List.takeWhile_append]
  split
  · rename_i hall
    rw [decide_eq_false_iff_not] at h
    rw [List.length_append, hall, decide_eq_decide]
    omega
  · rfl

theorem endsEscaping_concat {d : Char} (hd : d ≠ '\\') (ds : List Char) :
    endsEscaping (ds ++ [d]) = false := by
  simp [endsEscaping, hd]

theorem endsEscaping_hex {width : Nat} (hwidth : width ≠ 0) (ds : List Char) (n : Nat) :
    endsEscaping (ds ++ hex width n) = false := by
  obtain ⟨width, rfl⟩ := Nat.exists_eq_succ_of_ne_zero hwidth
  have hdigit : hexDigit n ∈ hex (width + 1) n := List.mem_append_right _ List.mem_cons_self
  rw [hex, ← List.append_assoc]
  exact endsEscaping_concat (ne_of_mem_hex hdigit (by decide)) _

theorem Shown.endsEscaping {c : Char} {shown : List Char} (h : Shown c shown) :
    endsEscaping shown = false := by
  cases h with
  | plain hquote hslash => exact endsEscaping_concat hslash []
  | escape he => exact endsEscaping_concat (isLetter_of_mem_escapes he).slash ['\\']
  | backslash => decide
  | short => exact endsEscaping_hex (by decide) ['\\', 'u'] _
  | long => exact endsEscaping_hex (by decide) ['\\', 'U'] _

theorem Shown.eq_backslash {shown : List Char} (h : Shown '\\' shown) : shown = ['\\', '\\'] := by
  cases h with
  | plain hquote hslash => exact absurd rfl hslash
  | escape he =>
    have hnone : ∀ p ∈ escapes, p.2 ≠ '\\' := by decide
    exact absurd rfl (hnone _ he)
  | backslash => rfl
  | short hhidden hlow => exact absurd hlow (by decide)
  | long hhidden hlow => exact absurd hlow (by decide)

/-! ## Marks of characters -/

section

variable {letter c : Char} {length : Nat} {cs tail shown : List Char} {checked : Bool}

/-- The text with the marks of characters resolved. A backslash in front of the first one counts
only if it is checked; it was not behind a mark. -/
def resolveFrom (checked : Bool) (letter : Char) (length : Nat) (cs : List Char) :
    Except Fault (List Char) :=
  match splitAtPair '\\' letter cs with
  | [] => .ok []
  | first :: rest =>
    (joinCodePoints letter length (checked && endsEscaping first) rest).map (first ++ ·)

theorem resolveCodePoints_eq (letter : Char) (length : Nat) (cs : List Char) :
    resolveCodePoints letter length cs = resolveFrom true letter length cs := by
  unfold resolveCodePoints resolveFrom
  split <;> simp_all

theorem resolveFrom_append {front : List Char} (hends : endsEscaping front = false)
    (hsplit : ∀ first rest, splitAtPair '\\' letter tail = first :: rest →
      splitAtPair '\\' letter (front ++ tail) = (front ++ first) :: rest) :
    resolveFrom checked letter length (front ++ tail) =
      (resolveFrom checked letter length tail).map (front ++ ·) := by
  rcases htail : splitAtPair '\\' letter tail with _ | ⟨first, rest⟩
  · exact absurd htail (splitAtPair_ne_nil _ _ _)
  · rw [resolveFrom, resolveFrom, htail, hsplit first rest htail]
    simp only [endsEscaping_append hends]
    cases joinCodePoints letter length (checked && endsEscaping first) rest with
    | error fault => rfl
    | ok more => exact congrArg Except.ok (List.append_assoc front first more)

/-- An escaped backslash in front of the letter of a mark: the pair is joined again if the backslash
is checked. -/
theorem resolveFrom_backslash (hletter : letter ≠ '\\') :
    resolveFrom true letter length ('\\' :: '\\' :: tail) =
      (resolveFrom true letter length tail).map (['\\', '\\'] ++ ·) := by
  by_cases hhead : tail.head? = some letter
  · obtain ⟨rest, rfl⟩ : ∃ rest, tail = letter :: rest := by
      rcases tail with _ | ⟨d, rest⟩
      · cases hhead
      · exact ⟨rest, by rw [Option.some_inj.1 hhead]⟩
    rcases hrest : splitAtPair '\\' letter rest with _ | ⟨first, more⟩
    · exact absurd hrest (splitAtPair_ne_nil _ _ _)
    have hsplit := splitAtPair_self '\\' letter rest
    have hright := splitAtPair_cons (c := letter) (by simp [hletter]) hrest
    rw [resolveFrom, splitAtPair_cons (by simp [Ne.symm hletter]) hsplit, hrest, resolveFrom,
      hright]
    have hodd : endsEscaping ['\\'] = true := by decide
    have hends := endsEscaping_append (endsEscaping_concat hletter []) first
    rw [List.nil_append, List.singleton_append] at hends
    simp only [hodd, hends, Bool.true_and, joinCodePoints]
    cases joinCodePoints letter length (endsEscaping first) more with
    | error fault => rfl
    | ok text => rfl
  · have hends : endsEscaping ['\\', '\\'] = false := by decide
    exact resolveFrom_append hends fun first rest h =>
      splitAtPair_cons (by simp [Ne.symm hletter]) (splitAtPair_cons (by simp [hhead]) h)

/-- A mark is resolved, and what follows it is not checked. -/
theorem resolveFrom_mark {digits : List Char} (hslash : '\\' ∉ digits)
    (hlength : digits.length = length) (hpoint : codePoint (digits.map Char.toLower) = .ok c) :
    resolveFrom checked letter length ('\\' :: letter :: digits ++ tail) =
      (resolveFrom false letter length tail).map (c :: ·) := by
  rcases htail : splitAtPair '\\' letter tail with _ | ⟨first, rest⟩
  · exact absurd htail (splitAtPair_ne_nil _ _ _)
  have hpiece := splitAtPair_append hslash htail
  have hnone : endsEscaping [] = false := rfl
  have htake : (digits ++ first).take length = digits := by simp [← hlength]
  have hdrop : (digits ++ first).drop length = first := by simp [← hlength]
  rw [resolveFrom, List.cons_append, List.cons_append, splitAtPair_self, hpiece, resolveFrom, htail]
  simp only [hnone, Bool.and_false, Bool.false_and, joinCodePoints, htake, hdrop, hpoint]
  cases joinCodePoints letter length false rest with
  | error fault => rfl
  | ok text => rfl

end

/-- Characters written by a letter in front of digits that denote them. -/
def Marks (letter : Char) (length : Nat) (f : Char → List Char) (c : Char) : Prop :=
  (f c).tail.head? = some letter → ∃ digits, f c = '\\' :: letter :: digits ∧ '\\' ∉ digits ∧
    digits.length = length ∧ codePoint (digits.map Char.toLower) = .ok c

/-- What is written with the marks of a letter resolved. -/
def settled (letter : Char) (f : Char → List Char) (c : Char) : List Char :=
  if (f c).tail.head? = some letter then [c] else f c

section

variable {letter : Char} {length : Nat} {f : Char → List Char}

/-- Marks are resolved one after another if no other pair looks like one. -/
theorem resolveFrom_flatMap_of_unchecked (hletter : letter ≠ '\\') (hquote : letter ≠ '"') :
    ∀ {cs : List Char}, (∀ c ∈ cs, Shown c (f c)) → (∀ c ∈ cs, Marks letter length f c) →
      ¬ ['\\', letter] <:+: cs →
      resolveFrom false letter length (cs.flatMap f ++ ['"']) =
        .ok (cs.flatMap (settled letter f) ++ ['"'])
  | [], _, _, _ => rfl
  | c :: cs, hshown, hmarks, hpair => by
    rw [not_pair_infix_cons] at hpair
    have hshown' := fun d hd => hshown d (List.mem_cons_of_mem c hd)
    have ih := resolveFrom_flatMap_of_unchecked hletter hquote hshown'
      (fun d hd => hmarks d (List.mem_cons_of_mem c hd)) hpair.2
    have hc := hshown c List.mem_cons_self
    rw [List.flatMap_cons, List.flatMap_cons, List.append_assoc, List.append_assoc, settled]
    split
    · rename_i hmark
      obtain ⟨digits, hf, hslash, hlength, hpoint⟩ := hmarks c List.mem_cons_self hmark
      rw [hf, resolveFrom_mark hslash hlength hpoint, ih]
      rfl
    · rename_i hmark
      -- only a backslash could make a mark with a letter that comes next
      have hnext : c = '\\' → (cs.flatMap f ++ ['"']).head? ≠ some letter := by
        intro hslash hhead
        rcases head?_flatMap hshown' hletter hhead with hhead | ⟨-, hhead⟩
        · exact hpair.1 ⟨hslash, hhead⟩
        · exact hquote (Option.some_inj.1 hhead).symm
      rw [resolveFrom_append hc.endsEscaping fun _ _ => hc.splitAtPair_shown hmark hnext, ih]
      rfl

/-- Up to the first mark, a pair that looks like one is kept apart by the backslash before it. -/
theorem resolveFrom_flatMap_of_checked (hletter : letter ≠ '\\') (hquote : letter ≠ '"') :
    ∀ {cs : List Char}, (∀ c ∈ cs, Shown c (f c)) → (∀ c ∈ cs, Marks letter length f c) →
      (∀ before c after, cs = before ++ c :: after → (f c).tail.head? = some letter →
        ¬ ['\\', letter] <:+: after) →
      resolveFrom true letter length (cs.flatMap f ++ ['"']) =
        .ok (cs.flatMap (settled letter f) ++ ['"'])
  | [], _, _, _ => rfl
  | c :: cs, hshown, hmarks, hpairs => by
    have hshown' := fun d hd => hshown d (List.mem_cons_of_mem c hd)
    have hmarks' := fun d hd => hmarks d (List.mem_cons_of_mem c hd)
    have ih := resolveFrom_flatMap_of_checked hletter hquote hshown' hmarks'
      fun before d after hcs => hpairs (c :: before) d after (by rw [hcs, List.cons_append])
    have hc := hshown c List.mem_cons_self
    rw [List.flatMap_cons, List.flatMap_cons, List.append_assoc, List.append_assoc, settled]
    split
    · rename_i hmark
      obtain ⟨digits, hf, hslash, hlength, hpoint⟩ := hmarks c List.mem_cons_self hmark
      -- from the first mark on, backslashes are not checked any more
      rw [hf, resolveFrom_mark hslash hlength hpoint,
        resolveFrom_flatMap_of_unchecked hletter hquote hshown' hmarks'
          (hpairs [] c cs rfl hmark)]
      rfl
    · rename_i hmark
      by_cases hslash : c = '\\'
      · subst hslash
        rw [hc.eq_backslash, List.cons_append, List.singleton_append,
          resolveFrom_backslash hletter, ih]
        rfl
      · rw [resolveFrom_append hc.endsEscaping fun _ _ =>
          hc.splitAtPair_shown hmark fun heq => absurd heq hslash, ih]
        rfl

theorem resolveCodePoints_flatMap {cs : List Char} (hletter : letter ≠ '\\') (hquote : letter ≠ '"')
    (hshown : ∀ c ∈ cs, Shown c (f c)) (hmarks : ∀ c ∈ cs, Marks letter length f c)
    (hpairs : ∀ before c after, cs = before ++ c :: after → (f c).tail.head? = some letter →
      ¬ ['\\', letter] <:+: after) :
    resolveCodePoints letter length ('"' :: (cs.flatMap f ++ ['"'])) =
      .ok ('"' :: (cs.flatMap (settled letter f) ++ ['"'])) := by
  rw [resolveCodePoints_eq, ← List.singleton_append, resolveFrom_append (by decide)
    fun _ _ h => splitAtPair_cons (fun hpair => absurd hpair.1 (by decide)) h,
    resolveFrom_flatMap_of_checked hletter hquote hshown hmarks hpairs]
  rfl

end

theorem Shown.short_of_mark {c : Char} {shown : List Char} (h : Shown c shown)
    (hmark : shown.tail.head? = some 'u') : shown = '\\' :: 'u' :: hex 4 c.toNat ∧
      isPrintable c = false ∧ 0x100 ≤ c.toNat ∧ c.toNat < 0x10000 := by
  cases h with
  | plain => cases hmark
  | escape he => exact absurd (Option.some_inj.1 hmark) (isLetter_of_mem_escapes he).mark.2.1
  | backslash => exact absurd (Option.some_inj.1 hmark) (by decide)
  | short hhidden hlow hhigh => exact ⟨rfl, hhidden, hlow, hhigh⟩
  | long => exact absurd (Option.some_inj.1 hmark) (by decide)

theorem Shown.long_of_mark {c : Char} {shown : List Char} (h : Shown c shown)
    (hmark : shown.tail.head? = some 'U') : shown = '\\' :: 'U' :: hex 8 c.toNat ∧
      isPrintable c = false ∧ 0x10000 ≤ c.toNat := by
  cases h with
  | plain => cases hmark
  | escape he => exact absurd (Option.some_inj.1 hmark) (isLetter_of_mem_escapes he).mark.2.2
  | backslash => exact absurd (Option.some_inj.1 hmark) (by decide)
  | short => exact absurd (Option.some_inj.1 hmark) (by decide)
  | long hhidden hlow => exact ⟨rfl, hhidden, hlow⟩

section

variable {c : Char} {f : Char → List Char}

theorem marks_short (h : Shown c (f c)) : Marks 'u' 4 f c := by
  intro hmark
  obtain ⟨hf, -, -, hhigh⟩ := h.short_of_mark hmark
  exact ⟨_, hf, fun hmem => ne_of_mem_hex hmem (by decide) rfl, length_hex 4 _,
    codePoint_short hhigh⟩

theorem marks_long (h : Shown c (f c)) : Marks 'U' 8 f c := by
  intro hmark
  obtain ⟨hf, -, -⟩ := h.long_of_mark hmark
  exact ⟨_, hf, fun hmem => ne_of_mem_hex hmem (by decide) rfl, length_hex 8 _, codePoint_long c⟩

theorem shown_self (h : 0x100 ≤ c.toNat) : Shown c [c] := by
  refine .plain ?_ ?_ ?_ ?_ <;> rintro rfl <;> exact absurd h (by decide)

theorem shown_settled_short (h : Shown c (f c)) : Shown c (settled 'u' f c) := by
  unfold settled
  split
  · rename_i hmark
    exact shown_self (h.short_of_mark hmark).2.2.1
  · exact h

theorem shown_settled_long (h : Shown c (f c)) : Shown c (settled 'U' f c) := by
  unfold settled
  split
  · rename_i hmark
    have hlow := (h.long_of_mark hmark).2.2
    exact shown_self (by omega)
  · exact h

theorem settled_notMark (letter : Char) (f : Char → List Char) (c : Char) :
    (settled letter f c).tail.head? ≠ some letter := by
  unfold settled
  split
  · simp
  · assumption

theorem settled_notMark_of {letter other : Char} (h : (f c).tail.head? ≠ some other) :
    (settled letter f c).tail.head? ≠ some other := by
  unfold settled
  split
  · simp
  · exact h

end

/-! ## Letters behind backslashes -/

theorem unescape_plain {c : Char} (hc : c ≠ '\\') (rest : List Char) :
    unescape (c :: rest) = (unescape rest).map (c :: ·) := by
  rw [unescape] <;> simp [hc]

/-- Without marks the letters behind backslashes give the characters back. -/
theorem unescape_flatMap {f : Char → List Char} : ∀ {cs : List Char}, (∀ c ∈ cs, Shown c (f c)) →
    (∀ c ∈ cs, (f c).tail.head? ≠ some 'u' ∧ (f c).tail.head? ≠ some 'U') → ∀ tail,
      unescape (cs.flatMap f ++ tail) = (unescape tail).map (cs ++ ·)
  | [], _, _, tail => by
    simp only [List.flatMap_nil, List.nil_append]
    cases unescape tail <;> rfl
  | c :: cs, hshown, hmarks, tail => by
    have ih := unescape_flatMap (fun d hd => hshown d (List.mem_cons_of_mem c hd))
      (fun d hd => hmarks d (List.mem_cons_of_mem c hd)) tail
    have hc : unescape (f c ++ (cs.flatMap f ++ tail)) =
        (unescape (cs.flatMap f ++ tail)).map (c :: ·) := by
      have hmark := hmarks c List.mem_cons_self
      generalize hf : f c = shown at hmark
      have hshownc := hshown c List.mem_cons_self
      rw [hf] at hshownc
      cases hshownc with
      | plain hquote hslash => exact unescape_plain hslash _
      | escape he =>
        have hletter := isLetter_of_mem_escapes he
        rw [List.cons_append, List.singleton_append, unescape, hletter.lookup]
      | backslash hslash =>
        have hnone : escapes.lookup '\\' = none := by decide
        rw [List.cons_append, List.singleton_append, unescape, hnone, hslash]
        rfl
      | short => exact absurd rfl hmark.1
      | long => exact absurd rfl hmark.2
    rw [List.flatMap_cons, List.append_assoc, hc, ih]
    cases unescape tail <;> rfl

/-! ## The checks of a string -/

theorem splitAt_cons {sep c : Char} {cs first : List Char} {rest : List (List Char)} (hc : c ≠ sep)
    (h : splitAt sep cs = first :: rest) : splitAt sep (c :: cs) = (c :: first) :: rest := by
  rw [splitAt, if_neg hc, h]

theorem splitAt_self (sep : Char) (cs : List Char) :
    splitAt sep (sep :: cs) = [] :: splitAt sep cs := by
  rw [splitAt, if_pos rfl]

/-- Every backslash inside a string has a letter that is known. -/
theorem hasKnownEscapes_of_inside {cs tail : List Char} (h : Inside cs) (htail : '\\' ∉ tail) :
    hasKnownEscapes false ((splitAt '\\' (cs ++ tail)).drop 1) = true := by
  induction h with
  | nil =>
    rw [List.nil_append, splitAt_of_notMem htail]
    rfl
  | @plain c cs hquote hslash hfeed h ih =>
    rcases hsplit : splitAt '\\' (cs ++ tail) with _ | ⟨first, rest⟩
    · exact absurd hsplit (splitAt_ne_nil _ _)
    rw [hsplit] at ih
    rw [List.cons_append, splitAt_cons hslash hsplit]
    exact ih
  | @escape e cs he h ih =>
    rcases hsplit : splitAt '\\' (cs ++ tail) with _ | ⟨first, rest⟩
    · exact absurd hsplit (splitAt_ne_nil _ _)
    rw [hsplit, List.drop_one, List.tail_cons] at ih
    rw [List.cons_append, splitAt_self, List.drop_one, List.tail_cons, List.cons_append]
    by_cases hslash : e = '\\'
    · rw [hslash, splitAt_self, hsplit]
      rcases first with _ | ⟨c, first⟩
      · exact ih
      · simp [hasKnownEscapes, ih]
    · rw [splitAt_cons hslash hsplit]
      have hknown : ((escapes.lookup e).isSome || decide (e = 'u') || decide (e = 'U')) = true := by
        rcases he with he | he | he | he
        · rw [he]
          rfl
        · simp [he]
        · simp [he]
        · exact absurd he hslash
      rw [hasKnownEscapes, hknown, ih]
      rfl

/-- The quote at the end of a string is the first one that no backslash escapes. -/
theorem isClosedBy_of_inside {cs : List Char} (h : Inside cs) :
    ∀ {front first : List Char} {rest : List (List Char)}, endsEscaping front = false →
      splitAt '"' (cs ++ ['"']) = first :: rest →
      isClosedBy false 0 false ((front ++ first) :: rest) = true := by
  induction h with
  | nil =>
    intro front first rest hfront hsplit
    cases hsplit
    rcases front with _ | ⟨c, front⟩
    · rfl
    · simp [isClosedBy, hfront, splitAt]
  | @plain c cs hquote hslash hfeed h ih =>
    intro front first rest hfront hsplit
    rcases hrest : splitAt '"' (cs ++ ['"']) with _ | ⟨piece, more⟩
    · exact absurd hrest (splitAt_ne_nil _ _)
    cases hsplit.symm.trans (splitAt_cons hquote hrest)
    have hnext := ih (endsEscaping_concat hslash front) hrest
    rwa [List.append_assoc, List.singleton_append] at hnext
  | @escape e cs he h ih =>
    intro front first rest hfront hsplit
    rcases hrest : splitAt '"' (cs ++ ['"']) with _ | ⟨piece, more⟩
    · exact absurd hrest (splitAt_ne_nil _ _)
    by_cases hquote : e = '"'
    · subst hquote
      -- an escaped quote ends the piece, which goes on behind it
      have hcut : splitAt '"' ('\\' :: '"' :: (cs ++ ['"'])) = ['\\'] :: piece :: more := by
        rw [splitAt_cons (by decide) (splitAt_self '"' _), hrest]
      cases hsplit.symm.trans hcut
      have hodd : endsEscaping (front ++ ['\\']) = true := by
        rw [endsEscaping_append hfront]
        decide
      have hnext := ih (rfl : endsEscaping [] = false) hrest
      rw [isClosedBy]
      simpa [hodd] using hnext
    · have hpair : endsEscaping (front ++ ['\\', e]) = false := by
        rw [endsEscaping_append hfront]
        by_cases hslash : e = '\\'
        · subst hslash
          decide
        · exact endsEscaping_concat hslash ['\\']
      have hslash : '\\' ≠ '"' := by decide
      have hcut := splitAt_cons hslash (splitAt_cons hquote hrest)
      cases hsplit.symm.trans hcut
      have hnext := ih hpair hrest
      simpa using hnext

theorem isOneString_of_inside {cs : List Char} (h : Inside cs) :
    isOneString '"' ('"' :: (cs ++ ['"'])) = true := by
  rcases hsplit : splitAt '"' (cs ++ ['"']) with _ | ⟨first, rest⟩
  · exact absurd hsplit (splitAt_ne_nil _ _)
  have hclosed := isClosedBy_of_inside h (rfl : endsEscaping [] = false) hsplit
  cases h with
  | nil => rfl
  | @plain c cs hquote =>
    rcases hrest : splitAt '"' (cs ++ ['"']) with _ | ⟨piece, more⟩
    · exact absurd hrest (splitAt_ne_nil _ _)
    cases hsplit.symm.trans (splitAt_cons hquote hrest)
    rw [isOneString, List.drop_one, List.tail_cons, hsplit]
    exact hclosed
  | @escape e cs =>
    rcases hrest : splitAt '"' (e :: cs ++ ['"']) with _ | ⟨piece, more⟩
    · exact absurd hrest (splitAt_ne_nil _ _)
    cases hsplit.symm.trans (splitAt_cons (by decide) hrest)
    rw [isOneString, List.drop_one, List.tail_cons, hsplit]
    exact hclosed

/-! ## Readable texts -/

theorem trimBy_one (a b : Char) (cs : List Char) : trimBy 1 (a :: (cs ++ [b])) = cs := by
  simp [trimBy]

theorem unquote_of_readable {cs : List Char} (hone : cs ≠ ['"']) (htwo : ¬ ['"', '"'] <+: cs) :
    unquote '"' ('"' :: (cs ++ ['"'])) = cs := by
  rcases cs with _ | ⟨c, cs⟩
  · rfl
  have hlong : (decide (c = '"') && ((cs ++ ['"']).isEmpty ||
      decide ((cs ++ ['"']).head? = some c))) = false := by
    by_cases hc : c = '"'
    · subst hc
      rcases cs with _ | ⟨d, cs⟩
      · exact absurd rfl hone
      · have hd : d ≠ '"' := by
          rintro rfl
          exact htwo ⟨cs, rfl⟩
        simp [hd]
    · simp [hc]
  unfold unquote
  simp only [List.cons_append, hlong, Bool.false_eq_true, if_false]
  exact trimBy_one '"' '"' (c :: cs)

/-- A readable text is what is read from the string that is written for it. -/
theorem string_flatMap {cs : List Char} (h : Readable cs) :
    string '"' ('"' :: (cs.flatMap (labelChar '"') ++ ['"'])) = .ok cs := by
  have hshown : ∀ c ∈ cs, Shown c (labelChar '"' c) := fun c hc => shown_labelChar (h.visible c hc)
  have hshort : resolveCodePoints 'u' 4 ('"' :: (cs.flatMap (labelChar '"') ++ ['"'])) = _ :=
    resolveCodePoints_flatMap (by decide) (by decide) hshown
      (fun c hc => marks_short (hshown c hc)) fun before c after hcs hmark => by
        obtain ⟨-, hhidden, hlow, hhigh⟩ :=
          (hshown c (by simp [hcs])).short_of_mark hmark
        exact h.short before c after hcs hhidden hlow hhigh
  have hshown₁ := fun c hc => shown_settled_short (hshown c hc)
  have hlong :
      resolveCodePoints 'U' 8 ('"' :: (cs.flatMap (settled 'u' (labelChar '"')) ++ ['"'])) = _ :=
    resolveCodePoints_flatMap (by decide) (by decide) hshown₁
      (fun c hc => marks_long (hshown₁ c hc)) fun before c after hcs hmark => by
        obtain ⟨-, hhidden, hlow⟩ := (hshown₁ c (by simp [hcs])).long_of_mark hmark
        exact h.long before c after hcs hhidden hlow
  have hletters :
      unescape ('"' :: (cs.flatMap (settled 'U' (settled 'u' (labelChar '"'))) ++ ['"'])) =
        .ok ('"' :: (cs ++ ['"'])) := by
    rw [unescape_plain (by decide), unescape_flatMap (fun c hc => shown_settled_long (hshown₁ c hc))
      fun c _ => ⟨settled_notMark_of (settled_notMark 'u' _ c), settled_notMark 'U' _ c⟩]
    rfl
  have hinside := inside_flatMap h.visible
  have hknown : hasKnownEscapes false ((splitAt '\\'
      ('"' :: (cs.flatMap (labelChar '"') ++ ['"']))).drop 1) = true := by
    rcases hsplit : splitAt '\\' (cs.flatMap (labelChar '"') ++ ['"']) with _ | ⟨first, rest⟩
    · exact absurd hsplit (splitAt_ne_nil _ _)
    have htail : '\\' ∉ ['"'] := by decide
    have hknown := hasKnownEscapes_of_inside hinside htail
    rw [hsplit] at hknown
    rwa [splitAt_cons (by decide) hsplit]
  unfold string
  rw [isOneString_of_inside hinside, hknown, hshort]
  show (resolveCodePoints 'U' 8 _ >>= _) = _
  rw [hlong]
  show (unescape _ >>= _) = _
  rw [hletters]
  exact congrArg Except.ok (unquote_of_readable h.quotes.1 h.quotes.2)

end TypedClient.Toml
