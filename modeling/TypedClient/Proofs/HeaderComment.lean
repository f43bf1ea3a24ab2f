import Mathlib.Algebra.GroupWithZero.Nat
import Mathlib.Order.Nat
import TypedClient.Proofs.TopLevelNames
import TypedClient.Proofs.Script.Block

/-!
# The comment at the head of the client file

The comment names the source of the client, which may be any text, in its guarded form. A guarded
text has no closing pair (`closings_guardComment`), the line of the source has no star at its end,
and blanks that come for tabs bring no star to a slash (`closings_expandTabs`). So the comment is
closed where its last line closes it and nowhere before (`header_guarded`).
-/

namespace TypedClient

open Text

namespace DocComment

variable {a b c d cs : List Char}

/-! ## Closing pairs -/

theorem pair_eq_zero_iff {c : Char} {next : Option Char} :
    pair c next = 0 ↔ ¬ (c = '*' ∧ next = some '/') := by
  simp [pair]

theorem closings_eq_zero_iff (cs : List Char) : closings cs = 0 ↔ ¬ ['*', '/'] <:+: cs := by
  induction cs with
  | nil => simp [closings]
  | cons c cs ih =>
    rw [closings, Nat.add_eq_zero_iff, pair_eq_zero_iff, ih, not_pair_infix_cons]

theorem eq_nil_of_closings_le (h : closings ('*' :: '/' :: b) ≤ 1)
    (heq : '*' :: '/' :: b = c ++ '*' :: '/' :: d) : c = [] := by
  rcases c with _ | ⟨x, _ | ⟨y, c⟩⟩
  · rfl
  · simp at heq
  · obtain ⟨-, -, rfl⟩ : '*' = x ∧ '/' = y ∧ b = c ++ '*' :: '/' :: d := by simpa using heq
    have hcut := closings_add_le ('*' :: '/' :: c) ('*' :: '/' :: d)
    simp only [List.cons_append, closings, pair, List.head?_cons] at h hcut
    simp at h hcut
    omega

/-- A text that is closed once is closed at one place. -/
theorem closing_unique (h : closings (a ++ '*' :: '/' :: b) ≤ 1)
    (heq : a ++ '*' :: '/' :: b = c ++ '*' :: '/' :: d) : a = c ∧ b = d := by
  have hb := closings_add_le a ('*' :: '/' :: b)
  have hd := closings_add_le c ('*' :: '/' :: d)
  rw [← heq] at hd
  rcases List.append_eq_append_iff.1 heq with ⟨e, rfl, he⟩ | ⟨e, rfl, he⟩
  · obtain rfl := eq_nil_of_closings_le (by omega) he
    simpa using he
  · obtain rfl := eq_nil_of_closings_le (by omega) he
    simpa using he.symm

/-- The same for texts, as the only way in which such a text is cut at a closing pair. -/
theorem closing_iff {s t : String} (h : closings (s ++ "*/" ++ t).toList ≤ 1)
    (before after : String) :
    s ++ "*/" ++ t = before ++ "*/" ++ after ↔ before = s ∧ after = t := by
  refine ⟨fun heq => ?_, ?_⟩
  · have hcut (s t : String) : (s ++ "*/" ++ t).toList = s.toList ++ '*' :: '/' :: t.toList := by
      simp
    rw [hcut] at h
    have hlists := congrArg String.toList heq
    rw [hcut, hcut] at hlists
    obtain ⟨hs, ht⟩ := closing_unique h hlists
    exact ⟨(String.toList_injective hs).symm, (String.toList_injective ht).symm⟩
  · rintro ⟨rfl, rfl⟩
    rfl

theorem guardComment_eq_self_iff (cs : List Char) : guardComment cs = cs ↔ closings cs = 0 := by
  refine ⟨fun h => h ▸ closings_guardComment cs, fun h => ?_⟩
  fun_induction guardComment cs with
  | case1 => rfl
  | case2 rest ih => simp [closings, pair] at h
  | case3 c rest hpair ih => rw [ih (Nat.add_eq_zero_iff.1 h).2]

/-- Blanks that come for the tabs of a text neither make nor part a pair. -/
theorem closings_expandTabs (text : String) :
    closings (expandTabs text).toList = closings text.toList := by
  rw [expandTabs, String.toList_ofList]
  induction text.toList with
  | nil => rfl
  | cons c cs ih =>
    rw [List.flatMap_cons, closings, ← ih]
    by_cases htab : c = '\t'
    · simp [htab, closings, pair]
    · have hhead : (cs.flatMap fun c => if c = '\t' then [' ', ' '] else [c]).head? = some '/' ↔
          cs.head? = some '/' := by
        rcases cs with _ | ⟨d, cs⟩
        · rfl
        · by_cases hd : d = '\t' <;> simp [hd]
      simp only [if_neg htab, List.singleton_append, closings, pair, hhead]

end DocComment

namespace Text

open DocComment

theorem inComment_eq_self_iff (text : String) :
    inComment text = text ↔ closings text.toList = 0 := by
  rw [← guardComment_eq_self_iff, inComment, String.ext_iff, String.toList_ofList]

end Text

namespace Interface

open DocComment

variable (i : Interface)

/-! ## The comment -/

theorem closings_ofLines (ls : List String) : closings (Scaffold.ofLines ls).toList =
    ((ls.map String.toList).map closings).sum := by
  have hjoin := closings_join 0 ls
  simp only [indent_zero, String.empty_append] at hjoin
  rw [List.map_map]
  exact hjoin

theorem closings_of_mem_sourceLines {line : String} (h : line ∈ i.sourceLines) :
    closings line.toList = 0 := by
  unfold sourceLines at h
  split at h
  · rename_i url _
    split at h
    · cases h
    · obtain rfl := List.mem_singleton.1 h
      rw [String.toList_append, closings_append (.inl (by decide)), closings_inComment]
      decide
  · cases h

theorem closings_comment : closings i.comment.toList = 1 := by
  have hsource : ((i.sourceLines.map String.toList).map closings).sum = 0 := by
    refine List.sum_eq_zero_iff_forall_eq_nat.2 ?_
    rw [List.forall_mem_map, List.forall_mem_map]
    exact fun line hline => i.closings_of_mem_sourceLines hline
  rw [comment, closings_ofLines, List.map_append, List.map_append, List.map_append,
    List.map_append, List.sum_append, List.sum_append, hsource,
    map_toList_of_chars Scaffold.headerOpening (by repeat constructor),
    map_toList_of_chars Scaffold.headerRest (by repeat constructor)]
  decide +kernel

/-- What stands between the marks of the comment at the head of the file. -/
def commentBody : String :=
  "\n" ++ Scaffold.ofLines Scaffold.headerOpening.tail ++ Scaffold.ofLines i.sourceLines ++
    Scaffold.ofLines Scaffold.headerRest.dropLast.dropLast ++ " "

theorem comment_eq : i.comment = "/**" ++ i.commentBody ++ "*/" ++ "\n\n" := by
  have hopening : Scaffold.ofLines Scaffold.headerOpening =
      "/**" ++ "\n" ++ Scaffold.ofLines Scaffold.headerOpening.tail :=
    Scaffold.ofLines_cons _ _
  have hrest : Scaffold.ofLines Scaffold.headerRest =
      Scaffold.ofLines Scaffold.headerRest.dropLast.dropLast ++ (" " ++ "*/" ++ "\n\n") :=
    Scaffold.ofLines_append Scaffold.headerRest.dropLast.dropLast [" */", ""]
  rw [comment, commentBody, Scaffold.ofLines_append, Scaffold.ofLines_append, hopening, hrest]
  simp only [String.append_assoc]

theorem expandTabs_comment :
    expandTabs i.comment = "/**" ++ expandTabs i.commentBody ++ "*/" ++ "\n\n" := by
  rw [comment_eq]
  simp only [expandTabs_append]
  rfl

/-- No source closes the comment at the head of the client file. A guarded text has no closing pair,
is the text itself exactly if that has none, and stays as it is when it is guarded once more. The
printed comment has one closing pair, its own, with the types of results behind it. -/
theorem header_guarded (text : String) (i : Interface) (order : Int) :
    ¬ ['*', '/'] <:+: (inComment text).toList ∧
      (inComment text = text ↔ ¬ ['*', '/'] <:+: text.toList) ∧
      inComment (inComment text) = inComment text ∧
      (CodeBlock.mk order i.header).text =
        "/**" ++ expandTabs i.commentBody ++ "*/" ++ "\n\n" ++
          expandTabs (Scaffold.ofLines Scaffold.resultTypes) ∧
      ∀ before after,
        "/**" ++ expandTabs i.commentBody ++ "*/" ++ "\n\n" = before ++ "*/" ++ after ↔
          before = "/**" ++ expandTabs i.commentBody ∧ after = "\n\n" := by
  have hguarded := closings_inComment text
  have honce : closings (expandTabs i.comment).toList = 1 := by
    rw [closings_expandTabs, closings_comment]
  rw [expandTabs_comment] at honce
  refine ⟨(closings_eq_zero_iff _).1 hguarded, ?_, (inComment_eq_self_iff _).2 hguarded, ?_,
    closing_iff honce.le⟩
  · rw [inComment_eq_self_iff, closings_eq_zero_iff]
  · rw [CodeBlock.text, expandTabs_header, expandTabs_comment]

example : inComment "**/ and */" = "**\\/ and *\\/" := by
  decide +kernel

end Interface

end TypedClient
