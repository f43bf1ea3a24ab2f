import Mathlib.Tactic.Common
import TypedClient.Proofs.TypeText.WellFormed

/-!
# The scan sees what was printed

The text of a type leaves the depth of a scan as it was, and shows an operator at depth zero exactly
if the type is a combination or has several literals (`scans_render`). So a member of
a combination gets parentheses exactly if it is one of these. What a scan does on a text is known
from what it does on the pieces: see `Scans.append` and `Scans.enclosed`.
-/

namespace TypedClient.TypeExpr

open Text

namespace Scan

theorem findsOperator_append (s : Scan) (a b : List Char) :
    s.findsOperator (a ++ b) = (s.findsOperator a || (a.foldl step s).findsOperator b) := by
  induction a generalizing s with
  | nil => rfl
  | cons c cs ih =>
    simp only [List.cons_append, findsOperator, List.foldl_cons, ih, Bool.or_assoc]

theorem step_opening {o : Char} (ho : isOpening o = true) (d : Int) :
    step ⟨d, .outside⟩ o = ⟨d + 1, .outside⟩ := by
  have hquote : o ≠ '"' := by rintro rfl; simp [isOpening] at ho
  simp [step, hquote, ho]

theorem step_closing {c : Char} (hc : isClosing c = true) (d : Int) :
    step ⟨d, .outside⟩ c = ⟨d - 1, .outside⟩ := by
  have hquote : c ≠ '"' := by rintro rfl; simp [isClosing] at hc
  have hother : isOpening c = false := by
    simp only [isClosing, Bool.or_eq_true, decide_eq_true_eq] at hc
    rcases hc with ((rfl | rfl) | rfl) | rfl <;> rfl
  simp [step, hquote, hother, hc]

end Scan

open Scan

/-- From outside literals at any depth, a scan comes back to this depth outside literals, and it
meets an operator exactly if the depth is zero and the text shows one. -/
def Scans (shows : Bool) (cs : List Char) : Prop :=
  ∀ d : Int, 0 ≤ d → cs.foldl step ⟨d, .outside⟩ = ⟨d, .outside⟩ ∧
    findsOperator ⟨d, .outside⟩ cs = (d = 0 && shows)

namespace Scans

theorem nil : Scans false [] := fun d _ => ⟨rfl, by simp [findsOperator]⟩

theorem append {a b : List Char} {x y : Bool} (ha : Scans x a) (hb : Scans y b) :
    Scans (x || y) (a ++ b) := by
  intro d hd
  obtain ⟨ha₁, ha₂⟩ := ha d hd
  obtain ⟨hb₁, hb₂⟩ := hb d hd
  refine ⟨by rw [List.foldl_append, ha₁, hb₁], ?_⟩
  rw [findsOperator_append, ha₁, ha₂, hb₂, Bool.and_or_distrib_left]

theorem enclosed {o c : Char} {cs : List Char} {x : Bool} (ho : isOpening o = true)
    (hc : isClosing c = true) (h : Scans x cs) : Scans false (o :: (cs ++ [c])) := by
  intro d hd
  obtain ⟨h₁, h₂⟩ := h (d + 1) (by omega)
  have hstep := step_opening ho d
  have hback : step ⟨d + 1, .outside⟩ c = ⟨d, .outside⟩ := by
    rw [step_closing hc, Int.add_sub_cancel]
  have ho' : meetsOperator ⟨d, .outside⟩ o = false := by
    simp only [isOpening, Bool.or_eq_true, decide_eq_true_eq] at ho
    rcases ho with ((rfl | rfl) | rfl) | rfl <;> simp [meetsOperator]
  have hc' : meetsOperator ⟨d + 1, .outside⟩ c = false := by
    have : d + 1 ≠ 0 := by omega
    simp [meetsOperator, this]
  refine ⟨?_, ?_⟩
  · rw [List.foldl_cons, hstep, List.foldl_append, h₁, List.foldl_cons, hback, List.foldl_nil]
  · have hne : d + 1 ≠ 0 := by omega
    simp [findsOperator, ho', hstep, findsOperator_append, h₁, h₂, hc', hne]

/-- Characters that a scan passes over. -/
def isPlain (c : Char) : Bool :=
  c != '"' && c != '|' && c != '&' && !isOpening c && !isClosing c

theorem plain : ∀ cs : List Char, cs.all isPlain = true → Scans false cs
  | [], _ => nil
  | c :: cs, h => by
    rw [List.all_cons, Bool.and_eq_true] at h
    obtain ⟨hc, hcs⟩ := h
    refine append (a := [c]) (x := false) (fun d _ => ?_) (plain cs hcs)
    simp only [isPlain, bne_iff_ne, ne_eq, Bool.and_eq_true, Bool.not_eq_true'] at hc
    simp [step, meetsOperator, findsOperator, hc]

theorem operator (how : Combination) : Scans true (TypeExpr.operator how).toList := by
  intro d _
  cases how <;> by_cases hd : d = 0 <;>
    simp [TypeExpr.operator, findsOperator, meetsOperator, step, isOpening, isClosing, hd]

/-- Inside a literal a scan stays inside on such a text, at any depth. -/
def Inside (cs : List Char) : Prop :=
  ∀ d : Int, cs.foldl step ⟨d, .inside⟩ = ⟨d, .inside⟩ ∧
    findsOperator ⟨d, .inside⟩ cs = false

theorem Inside.append {a b : List Char} (ha : Inside a) (hb : Inside b) : Inside (a ++ b) := by
  intro d
  obtain ⟨ha₁, ha₂⟩ := ha d
  obtain ⟨hb₁, hb₂⟩ := hb d
  exact ⟨by rw [List.foldl_append, ha₁, hb₁], by rw [findsOperator_append, ha₁, ha₂, hb₂]; rfl⟩

theorem inside_single {c : Char} (hq : c ≠ '"') (hb : c ≠ '\\') : Inside [c] := by
  intro d
  simp [step, findsOperator, meetsOperator, hq, hb]

theorem inside_escape (c : Char) : Inside ['\\', c] := by
  intro d
  simp [step, findsOperator, meetsOperator]

theorem hexDigit_ne (n : Nat) : hexDigit n ≠ '"' ∧ hexDigit n ≠ '\\' := by
  have h : ∀ m < 16, Nat.digitChar m ≠ '"' ∧ Nat.digitChar m ≠ '\\' := by decide
  exact h (n % 16) (Nat.mod_lt _ (by omega))

theorem inside_hex : ∀ width n, Inside (hex width n)
  | 0, _ => fun _ => ⟨rfl, rfl⟩
  | width + 1, n =>
    (inside_hex width (n / 16)).append (inside_single (hexDigit_ne n).1 (hexDigit_ne n).2)

theorem inside_doubleQuotedChar (c : Char) : Inside (doubleQuotedChar c) := by
  unfold doubleQuotedChar
  split
  · exact inside_escape _
  · rename_i hs
    split
    · exact (inside_escape 'u').append (inside_hex 4 c.toNat)
    · refine inside_single ?_ ?_ <;> rintro rfl <;> simp [shortEscape?] at hs

theorem inside_flatMap : ∀ cs : List Char, Inside (cs.flatMap doubleQuotedChar)
  | [] => fun _ => ⟨rfl, rfl⟩
  | c :: cs => (inside_doubleQuotedChar c).append (inside_flatMap cs)

theorem doubleQuoted (s : String) : Scans false (Text.doubleQuoted s).toList := by
  intro d _
  obtain ⟨h₁, h₂⟩ := inside_flatMap s.toList d
  have hopen : step ⟨d, .outside⟩ '"' = ⟨d, .inside⟩ := rfl
  have hclose : step ⟨d, .inside⟩ '"' = ⟨d, .outside⟩ := rfl
  simp only [Text.doubleQuoted, String.toList_ofList, List.foldl_cons, List.foldl_append, hopen,
    h₁, hclose, List.foldl_nil, true_and]
  simp [findsOperator, hopen, findsOperator_append, h₁, h₂, meetsOperator]

theorem literal (choice : Option String) : Scans false (TypeExpr.literal choice).toList := by
  cases choice with
  | none => exact plain "null".toList (by decide)
  | some s => exact doubleQuoted s

/-- Texts with a separator between them show what the separator shows if there are two of them. -/
theorem intercalate {sep : String} {x : Bool} (hsep : Scans x sep.toList) :
    ∀ {texts : List String}, (∀ t ∈ texts, Scans false t.toList) →
      Scans (x && 2 ≤ texts.length) (String.intercalate sep texts).toList
  | [], _ => by simpa using nil
  | [t], h => by simpa using h t
  | t :: u :: rest, h => by
    have hrest := intercalate hsep fun s hs => h s (List.mem_cons_of_mem t hs)
    have := ((h t List.mem_cons_self).append hsep).append hrest
    cases x <;> simpa [String.toList_intercalate, List.intercalate_cons_cons] using this

end Scans

/-- A class of characters without quotes, operators and brackets is passed over. -/
theorem isPlain_of_class (isMember : Char → Bool) (hnone : ['"', '|', '&', '\x7b', '[', '(', '<',
    '\x7d', ']', ')', '>'].any isMember = false) {c : Char} (h : isMember c = true) :
    Scans.isPlain c = true := by
  by_contra hn
  simp only [Scans.isPlain, isOpening, isClosing, bne_iff_ne, ne_eq, Bool.and_eq_true,
    Bool.not_eq_true', Bool.or_eq_false_iff, decide_eq_false_iff_not, not_and_or, not_not] at hn
  rcases hn with (((rfl | rfl) | rfl) | (((rfl | rfl) | rfl) | rfl)) |
    (((rfl | rfl) | rfl) | rfl) <;> simp [h] at hnone

/-- An identifier consists of the characters of identifiers, but for a line feed at its end. -/
theorem mem_of_isIdentifier {name : String} (h : Name.isIdentifier name = true) {c : Char}
    (hc : c ∈ name.toList) :
    Name.isIdentifierPart c = true ∨ c = '\n' ∧ name.toList.getLast? = some '\n' := by
  unfold Name.isIdentifier at h
  split at h
  · cases h
  · rename_i a rest hname
    rw [hname] at hc ⊢
    simp only [Bool.and_eq_true, List.all_eq_true] at h
    rcases List.mem_cons.1 hc with rfl | hc
    · exact .inl (by simp [Name.isIdentifierPart, h.1])
    · have hdrop := h.2
      unfold Name.dropFinalNewline at hdrop
      split at hdrop
      · rename_i hlast
        obtain ⟨front, rfl⟩ := List.getLast?_eq_some_iff.1 hlast
        rw [List.dropLast_concat] at hdrop
        rcases List.mem_append.1 hc with hc | hc
        · exact .inl (hdrop c hc)
        · refine .inr ⟨List.mem_singleton.1 hc, ?_⟩
          rw [← List.cons_append]
          exact List.getLast?_concat
      · exact .inl (hdrop c hc)

theorem all_isPlain_of_isIdentifier {name : String} (h : Name.isIdentifier name = true) :
    name.toList.all Scans.isPlain = true := by
  refine List.all_eq_true.2 fun c hc => ?_
  rcases mem_of_isIdentifier h hc with hc | ⟨rfl, -⟩
  · exact isPlain_of_class Name.isIdentifierPart (by decide) hc
  · rfl

theorem all_isPlain_indent (level : Int) : (indent level).toList.all Scans.isPlain = true :=
  List.all_eq_true.2 fun _ hc => eq_space_of_mem_indent hc ▸ rfl

theorem scans_propertyKey (name : String) : Scans false (Name.propertyKey name).toList := by
  unfold Name.propertyKey
  split
  · rename_i h
    exact Scans.plain _ (all_isPlain_of_isIdentifier h)
  · exact Scans.doubleQuoted name

theorem scans_indent (level : Int) : Scans false (indent level).toList :=
  Scans.plain _ (all_isPlain_indent level)

theorem scans_propertyLine (level : Int) (key : PropertyKey) {type : String} {x : Bool}
    (h : Scans x type.toList) : Scans x (propertyLine level key type).toList := by
  have hmark : Scans false (if key.isOptional then "?" else "").toList := by
    split <;> exact Scans.plain _ (by decide)
  have hcolon : Scans false ": ".toList := Scans.plain _ (by decide)
  have hend : Scans false ";".toList := Scans.plain _ (by decide)
  have := (((((scans_indent (level + 1)).append (scans_propertyKey key.name)).append
    hmark).append hcolon).append h).append hend
  simpa [propertyLine] using this

theorem exists_scans_lines : ∀ {lines : List String}, (∀ t ∈ lines, ∃ x, Scans x t.toList) →
    ∃ x, Scans x (String.intercalate "\n" lines).toList
  | [], _ => ⟨false, by simpa using Scans.nil⟩
  | [t], h => by simpa using h t
  | t :: u :: rest, h => by
    obtain ⟨x, hx⟩ := h t List.mem_cons_self
    obtain ⟨y, hy⟩ := exists_scans_lines fun s hs => h s (List.mem_cons_of_mem t hs)
    refine ⟨x || y, ?_⟩
    have := (hx.append (Scans.plain "\n".toList (by decide))).append hy
    simpa [String.toList_intercalate, List.intercalate_cons_cons] using this

/-- Whether the text of a type shows an operator: it has several members or literals. -/
def isCompound : TypeExpr → Bool
  | .literals choices => 2 ≤ choices.length
  | .combination _ members => 2 ≤ members.length
  | _ => false

theorem hasTopLevelOperator_of_scans {text : String} {x : Bool} (h : Scans x text.toList) :
    hasTopLevelOperator text = x := by
  rw [hasTopLevelOperator, (h 0 (Int.le_refl 0)).2]
  rfl

theorem renderProperties_eq_map (level : Int) : ∀ ps : List (PropertyKey × TypeExpr),
    renderProperties level ps = ps.map fun p => propertyLine level p.1 (render (level + 1) p.2)
  | [] => rfl
  | (_, _) :: ps => by rw [renderProperties, List.map_cons, renderProperties_eq_map level ps]

theorem renderMembers_eq_map (level : Int) : ∀ ms : List TypeExpr,
    renderMembers level ms = ms.map fun m => grouped (render level m)
  | [] => rfl
  | _ :: ms => by rw [renderMembers, List.map_cons, renderMembers_eq_map level ms]

theorem scans_grouped {text : String} {x : Bool} (h : Scans x text.toList) :
    Scans false (grouped text).toList := by
  unfold grouped
  rw [hasTopLevelOperator_of_scans h]
  split
  · have := h.enclosed (o := '(') (c := ')') rfl rfl
    simpa using this
  · rename_i hx
    simpa [hx] using h

/-- On the text of a type whose names are plain a scan meets an operator at depth zero exactly if
the type is compound. -/
theorem scans_render {name key : String → Prop}
    (hname : ∀ n, name n → n.toList.all Scans.isPlain = true) {t : TypeExpr}
    (h : WellFormed name key t) : ∀ level, Scans t.isCompound (render level t).toList := by
  induction h with
  | unknown => exact fun _ => Scans.plain "unknown".toList (by decide)
  | string => exact fun _ => Scans.plain "string".toList (by decide)
  | number => exact fun _ => Scans.plain "number".toList (by decide)
  | boolean => exact fun _ => Scans.plain "boolean".toList (by decide)
  | openRecord =>
    intro level
    have hword := Scans.plain "Record".toList (by decide)
    have harguments := Scans.plain "string, unknown".toList (by decide)
    simpa [render, isCompound] using
      hword.append (harguments.enclosed (o := '<') (c := '>') rfl rfl)
  | @literals choices _ =>
    intro level
    have htexts : ∀ t ∈ choices.map literal, Scans false t.toList := by
      simpa using fun c _ => Scans.literal c
    simpa [render, isCompound, operator] using Scans.intercalate (Scans.operator .union) htexts
  | @named n hn => exact fun _ => Scans.plain _ (hname n hn)
  | @array element _ ih =>
    intro level
    have := (ih level).enclosed (o := '<') (c := '>') rfl rfl
    have := (Scans.plain "Array".toList (by decide)).append this
    simpa [render, isCompound] using this
  | @object properties _ _ ih =>
    intro level
    obtain ⟨x, hx⟩ : ∃ x, Scans x
        (String.intercalate "\n" (renderProperties level properties)).toList := by
      refine exists_scans_lines fun t ht => ?_
      rw [renderProperties_eq_map] at ht
      obtain ⟨p, hp, rfl⟩ := List.mem_map.1 ht
      exact ⟨_, scans_propertyLine level p.1 (ih p hp (level + 1))⟩
    have hnewline : Scans false "\n".toList := Scans.plain _ (by decide)
    have := (((hnewline.append hx).append hnewline).append (scans_indent level)).enclosed
      (o := '\x7b') (c := '\x7d') rfl rfl
    simpa [render, isCompound] using this
  | @combination how members _ _ ih =>
    intro level
    have htexts : ∀ t ∈ renderMembers level members, Scans false t.toList := by
      intro t ht
      rw [renderMembers_eq_map] at ht
      obtain ⟨m, hm, rfl⟩ := List.mem_map.1 ht
      exact scans_grouped (ih m hm level)
    simpa [render, isCompound, renderMembers_eq_map] using
      Scans.intercalate (Scans.operator how) htexts

end TypedClient.TypeExpr
