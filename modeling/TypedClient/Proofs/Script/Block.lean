import Mathlib.Algebra.GroupWithZero.Nat
import TypedClient.Text.Indent
import TypedClient.Text.Split

/-!
# Block comments

A comment ends where a star is followed by a slash (`closings`). A text in which every line but the
first has the marker of a comment says so at each line feed (`Marked`), so a text that is put
together from others can be judged by these (`marked_append`). A block is well formed if its first
and last line stand alone, every line between them has the marker, and only the last one closes it
(`Block`).
-/

namespace TypedClient.DocComment

open Text

variable {a b cs m : List Char} {c x : Char}

/-! ## Closing pairs -/

/-- One for a star with a slash as the next character. -/
def pair (c : Char) (next : Option Char) : Nat :=
  if c = '*' ∧ next = some '/' then 1 else 0

theorem pair_none (c : Char) : pair c none = 0 := if_neg (by simp)

/-- How often a star is followed by a slash. -/
def closings : List Char → Nat
  | [] => 0
  | c :: cs => pair c cs.head? + closings cs

/-- No pair is made where two texts meet. -/
def Apart (a b : List Char) : Prop :=
  a.getLast? ≠ some '*' ∨ b.head? ≠ some '/'

theorem closings_append (h : Apart a b) : closings (a ++ b) = closings a + closings b := by
  induction a with
  | nil => simp [closings]
  | cons c a ih =>
    -- the last character of the first text is the one that meets the second text
    cases a with
    | nil =>
      have hpair : pair c b.head? = 0 := by
        refine if_neg ?_
        rintro ⟨rfl, hslash⟩
        rcases h with hstar | hother
        · exact hstar rfl
        · exact hother hslash
      simp [closings, hpair, pair_none]
    | cons d a =>
      have hrest : Apart (d :: a) b := by
        rwa [Apart, List.getLast?_cons_cons] at h
      have := ih hrest
      simp only [List.cons_append, closings, List.head?_cons] at this ⊢
      omega

theorem closings_add_le (a b : List Char) : closings a + closings b ≤ closings (a ++ b) := by
  induction a with
  | nil => simp [closings]
  | cons c a ih =>
    cases a with
    | nil => simp [closings, pair_none]
    | cons d a =>
      simp only [List.cons_append, closings, List.head?_cons] at ih ⊢
      omega

theorem closings_le_of_mem {l : List (List Char)} (h : a ∈ l) :
    closings a ≤ closings l.flatten := by
  obtain ⟨before, after, rfl⟩ := List.append_of_mem h
  have hcut := closings_add_le before.flatten (a ++ after.flatten)
  have hmiddle := closings_add_le a after.flatten
  simp only [List.flatten_append, List.flatten_cons]
  omega

theorem closings_of_notMem (h : '*' ∉ cs) : closings cs = 0 := by
  induction cs with
  | nil => rfl
  | cons c cs ih =>
    rw [List.mem_cons, not_or] at h
    simp [closings, pair, Ne.symm h.1, ih h.2]

theorem closings_append_newline (a b : List Char) :
    closings (a ++ '\n' :: b) = closings a + closings b := by
  rw [closings_append (.inr (by simp))]
  simp [closings, pair]

theorem head?_guardComment (cs : List Char) : (guardComment cs).head? = cs.head? := by
  fun_cases guardComment cs <;> rfl

/-- A guarded text closes no comment. -/
theorem closings_guardComment (cs : List Char) : closings (guardComment cs) = 0 := by
  fun_induction guardComment cs with
  | case1 => rfl
  | case2 rest ih => simpa [closings, pair] using ih
  | case3 c rest hpair ih =>
    have hnone : pair c rest.head? = 0 := by
      refine if_neg ?_
      rintro ⟨rfl, hhead⟩
      obtain ⟨tail, rfl⟩ := List.head?_eq_some_iff.1 hhead
      exact hpair tail rfl rfl
    simp [closings, head?_guardComment, hnone, ih]

theorem closings_inComment (text : String) : closings (inComment text).toList = 0 := by
  rw [inComment, String.toList_ofList]
  exact closings_guardComment text.toList

/-! ## Texts put together -/

/-- What two texts pass on to the text that they make holds of texts with a separator between. -/
theorem of_intercalate {P : String → Prop} (hempty : P "")
    (happend : ∀ {s t : String}, P s → P t → P (s ++ t)) {sep : String} (hsep : P sep) :
    ∀ {texts : List String}, (∀ t ∈ texts, P t) → P (String.intercalate sep texts)
  | [], _ => by simpa using hempty
  | [t], h => by simpa using h t
  | t :: u :: rest, h => by
    have hrest := of_intercalate hempty happend hsep fun s hs => h s (List.mem_cons_of_mem t hs)
    have hall := happend (happend (h t List.mem_cons_self) hsep) hrest
    have heq : String.intercalate sep (t :: u :: rest) =
        t ++ sep ++ String.intercalate sep (u :: rest) :=
      String.toList_injective (by simp [String.toList_intercalate])
    rwa [heq]

/-- The text closes no comment, whatever follows it. -/
structure Sealed (s : String) : Prop where
  closings_eq : closings s.toList = 0
  getLast_ne : s.toList.getLast? ≠ some '*'

namespace Sealed

variable {s t : String}

theorem append (hs : Sealed s) (ht : Sealed t) : Sealed (s ++ t) := by
  refine ⟨?_, ?_⟩
  · rw [String.toList_append, closings_append (.inl hs.getLast_ne), hs.closings_eq, ht.closings_eq]
  · rw [String.toList_append, List.getLast?_append]
    rcases hlast : t.toList.getLast? with _ | c
    · exact hs.getLast_ne
    · rw [Option.some_or]
      exact hlast ▸ ht.getLast_ne

theorem of_notMem (h : '*' ∉ s.toList) : Sealed s :=
  ⟨closings_of_notMem h, fun hlast => h (List.mem_of_getLast? hlast)⟩

theorem intercalate {sep : String} (hsep : Sealed sep) {texts : List String}
    (h : ∀ t ∈ texts, Sealed t) : Sealed (String.intercalate sep texts) :=
  of_intercalate (of_notMem (by simp)) append hsep h

end Sealed

/-- Escapes bring no closing pair into a text. -/
theorem closings_flatMap {f : Char → List Char}
    (hf : ∀ c, f c = [c] ∨ '*' ∉ f c ∧ (f c).head? = some '\\') (cs : List Char)
    (hnone : closings cs = 0) : closings (cs.flatMap f) = 0 := by
  induction cs with
  | nil => rfl
  | cons c cs ih =>
    rw [closings, Nat.add_eq_zero_iff] at hnone
    have hrest := ih hnone.2
    rw [List.flatMap_cons]
    rcases hf c with hsame | ⟨hstar, -⟩
    · have hpair : pair c (cs.flatMap f).head? = 0 := by
        refine if_neg ?_
        rintro ⟨rfl, hslash⟩
        cases cs with
        | nil => simp at hslash
        | cons d cs =>
          -- a slash that comes first now is no escape, so it came first before
          rcases hf d with hd | ⟨-, hd⟩
          · rw [List.flatMap_cons, hd, List.singleton_append, List.head?_cons,
              Option.some.injEq] at hslash
            simp [pair, hslash] at hnone
          · rw [List.flatMap_cons, List.head?_append, hd] at hslash
            cases hslash
      rw [hsame, List.singleton_append, closings, hpair, hrest]
    · rw [closings_append (.inl fun hlast => hstar (List.mem_of_getLast? hlast)), hrest,
        closings_of_notMem hstar]

/-! ## Markers -/

/-- Behind each line feed of the text stands the marker. -/
def Marked (m : List Char) : List Char → Prop
  | [] => True
  | c :: cs => (c = '\n' → m <+: cs) ∧ Marked m cs

theorem marked_of_notMem (h : '\n' ∉ cs) : Marked m cs := by
  induction cs with
  | nil => trivial
  | cons c cs ih =>
    rw [List.mem_cons, not_or] at h
    exact ⟨fun hc => absurd hc.symm h.1, ih h.2⟩

theorem marked_append (h : ∀ v, m <+: v ++ b ↔ m <+: v) :
    Marked m (a ++ b) ↔ Marked m a ∧ Marked m b := by
  induction a with
  | nil => simp [Marked]
  | cons c a ih => simp only [List.cons_append, Marked, h, ih, and_assoc]

theorem marked_append_of_notMem (h : '\n' ∉ a) : Marked m (a ++ b) ↔ Marked m b := by
  induction a with
  | nil => rfl
  | cons c a ih =>
    rw [List.mem_cons, not_or] at h
    rw [List.cons_append, Marked, ih h.2]
    exact and_iff_right fun hc => absurd hc.symm h.1

theorem prefix_head_splitAt (hm : '\n' ∉ m) {first : List Char} {more : List (List Char)}
    (h : splitAt '\n' cs = first :: more) : m <+: first ↔ m <+: cs := by
  induction cs generalizing m first more with
  | nil =>
    rw [splitAt, List.cons.injEq] at h
    rw [← h.1]
  | cons c cs ih =>
    rw [splitAt] at h
    cases m with
    | nil => simp
    | cons d m =>
      rw [List.mem_cons, not_or] at hm
      split at h
      · rename_i hc
        rw [List.cons.injEq] at h
        rw [← h.1, hc]
        simp [List.cons_prefix_cons, Ne.symm hm.1]
      · split at h
        · rename_i hnil
          exact absurd hnil (splitAt_ne_nil _ _)
        · rename_i piece pieces hpieces
          rw [List.cons.injEq] at h
          rw [← h.1, List.cons_prefix_cons, List.cons_prefix_cons, ih hm.2 hpieces]

theorem marked_iff (hm : '\n' ∉ m) :
    Marked m cs ↔ ∀ line ∈ (splitAt '\n' cs).tail, m <+: line := by
  induction cs with
  | nil => simp [splitAt, Marked]
  | cons c cs ih =>
    obtain ⟨first, more, hcs⟩ := List.exists_cons_of_ne_nil (splitAt_ne_nil '\n' cs)
    rw [Marked, ih, splitAt, hcs]
    split
    · rename_i hc
      simp [hc, prefix_head_splitAt hm hcs]
    · rename_i hc
      simp [hc]

/-- Every line begins with the marker exactly if the text does and the marker stands behind each
line feed. -/
theorem forall_mem_splitAt (hm : '\n' ∉ m) :
    (∀ line ∈ splitAt '\n' cs, m <+: line) ↔ m <+: cs ∧ Marked m cs := by
  obtain ⟨first, more, hcs⟩ := List.exists_cons_of_ne_nil (splitAt_ne_nil '\n' cs)
  rw [marked_iff hm, hcs, List.forall_mem_cons, prefix_head_splitAt hm hcs, List.tail_cons]

/-- What every line inside a comment at a level begins with. -/
def marker (level : Int) : List Char :=
  (indent level).toList ++ [' ', '*']

theorem newline_notMem_marker (level : Int) : '\n' ∉ marker level := by
  simp [marker, newline_notMem_indent]

theorem blanks_star_prefix (hx : x ≠ ' ' ∧ x ≠ '*') (n : Nat) (v : List Char) :
    List.replicate n ' ' ++ ['*'] <+: v ++ ' ' :: x :: cs ↔
      List.replicate n ' ' ++ ['*'] <+: v := by
  induction n generalizing v with
  | zero => cases v <;> simp [List.cons_prefix_cons]
  | succ n ih =>
    cases v with
    | nil =>
      have hno : ¬ List.replicate n ' ' ++ ['*'] <+: x :: cs := by
        cases n <;> simp [List.replicate_succ, List.cons_prefix_cons, hx.1.symm, hx.2.symm]
      simp [List.replicate_succ, List.cons_prefix_cons, hno]
    | cons d v =>
      simp only [List.replicate_succ, List.cons_append, List.cons_prefix_cons, ih]

/-- The marker does not reach into a blank with something else behind it. -/
theorem marker_prefix_append (hx : x ≠ ' ' ∧ x ≠ '*') (level : Int) (v : List Char) :
    marker level <+: v ++ ' ' :: x :: cs ↔ marker level <+: v := by
  have hmarker : marker level = List.replicate (2 * level.toNat + 1) ' ' ++ ['*'] := by
    simp [marker, indent, List.replicate_succ']
  rw [hmarker]
  exact blanks_star_prefix hx _ v

/-! ## Blocks -/

/-- A block comment at a level: its first and last line stand alone, every line between them has the
marker, and only the last one closes it. -/
structure Block (level : Int) (text : String) : Prop where
  lines : ∃ between, splitAt '\n' text.toList =
    [(indent level).toList ++ ['/', '*', '*']] ++ between ++
      [(indent level).toList ++ [' ', '*', '/'], []] ∧
    ∀ line ∈ between, marker level <+: line
  closesOnce : closings text.toList = 1

section

variable (level : Int)

theorem closings_indent_append (cs : List Char) :
    closings ((indent level).toList ++ cs) = closings cs := by
  have hblanks : ∀ n, closings (List.replicate n ' ' ++ cs) = closings cs := by
    intro n
    induction n with
    | zero => rfl
    | succ n ih => simpa [List.replicate_succ, closings, pair] using ih
  simpa [indent] using hblanks (2 * level.toNat)

theorem closings_join (ls : List String) :
    closings (String.join (ls.map fun line => indent level ++ line ++ "\n")).toList =
      (ls.map fun line => closings line.toList).sum := by
  induction ls with
  | nil => rfl
  | cons line ls ih =>
    rw [List.map_cons, String.join_cons, List.map_cons, List.sum_cons, ← ih,
      ← closings_append_newline, ← closings_indent_append level (_ ++ '\n' :: _)]
    simp

theorem splitAt_join (ls : List String) :
    splitAt '\n' (String.join (ls.map fun line => indent level ++ line ++ "\n")).toList =
      (ls.flatMap fun line => splitAt '\n' ((indent level).toList ++ line.toList)) ++ [[]] := by
  induction ls with
  | nil => rfl
  | cons line ls ih =>
    rw [List.map_cons, String.join_cons, List.flatMap_cons, List.append_assoc, ← ih,
      ← splitAt_append]
    simp

end

end TypedClient.DocComment
