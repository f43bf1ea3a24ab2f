import Mathlib.Data.List.TakeWhile
import TypedClient.Proofs.TopLevelNames
import TypedClient.Proofs.Script.Literal

/-!
# Property keys and accesses

A property is named in two ways: by its key in an object or an object type, and by an access to it.
Both are read here as the language reads them, and both lead from the name of a property back to
this name (`key?_propertyKey`, `spells_memberAccess`). The one exception is a name that is an
identifier with a line feed behind it: the test for identifiers overlooks the line feed, and so does
the language, which sees the property without it (`denotes_name_iff`).
-/

namespace TypedClient.Script

open Text Name

/-! ## Expressions -/

/-- A name, the access to a property, or a call with one argument. -/
inductive Expr where
  | name (s : String)
  | member (target : Expr) (property : List Nat)
  | call (function argument : Expr)
  deriving DecidableEq, Repr

/-- White space between the tokens of the language. -/
def isSpace (c : Char) : Bool :=
  let n := c.toNat
  (0x09 ≤ n && n ≤ 0x0d) || n == 0x20 || n == 0xa0 || n == 0x1680 || (0x2000 ≤ n && n ≤ 0x200a) ||
    n == 0x2028 || n == 0x2029 || n == 0x202f || n == 0x205f || n == 0x3000 || n == 0xfeff

def skip (cs : List Char) : List Char :=
  cs.dropWhile isSpace

/-- Whether no identifier goes on here, neither with a character of its own nor with one beyond
ASCII or with an escape. -/
def ends : List Char → Bool
  | [] => true
  | c :: _ => decide (c.toNat < 128) && c != '\\' && !isIdentifierPart c

/-- An identifier of ASCII characters at the beginning of a text. -/
def identifier? : List Char → Option (List Char × List Char)
  | [] => none
  | c :: cs =>
    if isIdentifierStart c && ends (cs.dropWhile isIdentifierPart) then
      some (c :: cs.takeWhile isIdentifierPart, cs.dropWhile isIdentifierPart)
    else none

/-- A property key at the beginning of a text: an identifier or a string. -/
def key? (cs : List Char) : Option (List Nat × List Char) :=
  match identifier? cs with
  | some (name, rest) => some (units name, rest)
  | none => string? cs

mutual

/-- An expression at the beginning of a text. The number bounds its size. -/
def expressionWithin : Nat → List Char → Option (Expr × List Char)
  | 0, _ => none
  | n + 1, cs =>
    (identifier? (skip cs)).bind fun r => continuedWithin n (.name (String.ofList r.1)) r.2

/-- An expression with the accesses and calls that go on with it. -/
def continuedWithin : Nat → Expr → List Char → Option (Expr × List Char)
  | 0, _, _ => none
  | n + 1, e, cs =>
    match skip cs with
    | '.' :: rest =>
      (identifier? (skip rest)).bind fun r => continuedWithin n (.member e (units r.1)) r.2
    | '[' :: rest =>
      (string? (skip rest)).bind fun r =>
        match skip r.2 with
        | ']' :: more => continuedWithin n (.member e r.1) more
        | _ => none
    | '(' :: rest =>
      (expressionWithin n rest).bind fun r =>
        match skip r.2 with
        | ')' :: more => continuedWithin n (.call e r.1) more
        | _ => none
    | rest => some (e, rest)

end

/-- An expression at the beginning of a text, and what follows it. -/
def expression? (cs : List Char) : Option (Expr × List Char) :=
  expressionWithin (cs.length + 1) cs

/-! ## Identifiers -/

variable {cs ds rest : List Char} {e a : Expr} {k j : Nat} {s name target : String}

theorem takeWhile_append_of_ends (hcs : ∀ c ∈ cs, isIdentifierPart c = true)
    (h : ends rest = true) : (cs ++ rest).takeWhile isIdentifierPart = cs ∧
      (cs ++ rest).dropWhile isIdentifierPart = rest := by
  rw [List.takeWhile_append_of_pos hcs, List.dropWhile_append_of_pos hcs]
  rcases rest with _ | ⟨c, rest⟩
  · simp
  · have hc : isIdentifierPart c = false := by
      rw [ends, Bool.and_eq_true, Bool.not_eq_true'] at h
      exact h.2
    simp [hc]

/-- An identifier is read to its end. -/
theorem identifier?_append (hname : isTypeName name = true) (h : ends rest = true) :
    identifier? (name.toList ++ rest) = some (name.toList, rest) := by
  have hpart : ∀ c ∈ name.toList, isIdentifierPart c = true :=
    fun c => isIdentifierPart_of_mem hname
  unfold isTypeName at hname
  split at hname
  · cases hname
  · rename_i c cs htext
    rw [Bool.and_eq_true] at hname
    rw [htext] at hpart ⊢
    obtain ⟨htake, hdrop⟩ := takeWhile_append_of_ends
      (fun d hd => hpart d (List.mem_cons_of_mem c hd)) h
    rw [List.cons_append, identifier?, htake, hdrop, hname.1, h, Bool.and_self, if_pos rfl]

theorem skip_cons {c : Char} (hc : isSpace c = false) : skip (c :: cs) = c :: cs := by
  simp [skip, hc]

theorem skip_append (h : skip cs = []) (rest : List Char) : skip (cs ++ rest) = skip rest :=
  List.dropWhile_append_of_pos (List.dropWhile_eq_nil_iff.1 h)

theorem isSpace_of_isIdentifierPart {c : Char} (hc : isIdentifierPart c = true) :
    isSpace c = false :=
  of_isIdentifierPart (P := fun c => isSpace c = false) (by decide) hc

theorem skip_identifier (hname : isTypeName name = true) :
    skip (name.toList ++ rest) = name.toList ++ rest := by
  rcases htext : name.toList with _ | ⟨c, cs⟩
  · rw [isTypeName, htext] at hname
    cases hname
  · have hpart : isIdentifierPart c = true := isIdentifierPart_of_mem hname (by simp [htext])
    exact skip_cons (isSpace_of_isIdentifierPart hpart)

/-! ## Texts of expressions -/

/-- The text is read as this expression, which may go on behind it. The number is the size that is
used up. -/
def Spells (cs : List Char) (e : Expr) (k : Nat) : Prop :=
  ∀ n rest, ends rest = true →
    ∃ m, n ≤ m ∧ expressionWithin (n + k) (cs ++ rest) = continuedWithin m e rest

theorem spells_name (hname : isTypeName name = true) : Spells name.toList (.name name) 1 := by
  intro n rest hrest
  refine ⟨n, le_rfl, ?_⟩
  rw [expressionWithin, skip_identifier hname, identifier?_append hname hrest, Option.bind_some,
    String.ofList_toList]

theorem Spells.member (h : Spells cs e k) (hname : isTypeName name = true) :
    Spells (cs ++ '.' :: name.toList) (.member e (units name.toList)) (k + 1) := by
  intro n rest hrest
  have hpoint : ends ('.' :: (name.toList ++ rest)) = true := rfl
  obtain ⟨m, hm, hread⟩ := h (n + 1) _ hpoint
  obtain ⟨m, rfl⟩ : ∃ m', m = m' + 1 := ⟨m - 1, by omega⟩
  refine ⟨m, by omega, ?_⟩
  rw [List.append_assoc, List.cons_append, show n + (k + 1) = n + 1 + k by omega, hread,
    continuedWithin, skip_cons (by decide)]
  simp only [skip_identifier hname, identifier?_append hname hrest, Option.bind_some]

theorem skip_quote (s : String) : skip ((doubleQuoted s).toList ++ rest) =
    (doubleQuoted s).toList ++ rest := by
  rw [doubleQuoted, String.toList_ofList, List.cons_append]
  exact skip_cons (by decide)

theorem Spells.index (h : Spells cs e k) (s : String) :
    Spells (cs ++ '[' :: ((doubleQuoted s).toList ++ [']'])) (.member e (units s.toList))
      (k + 1) := by
  intro n rest _
  have hbracket : ends ('[' :: ((doubleQuoted s).toList ++ ']' :: rest)) = true := rfl
  obtain ⟨m, hm, hread⟩ := h (n + 1) _ hbracket
  obtain ⟨m, rfl⟩ : ∃ m', m = m' + 1 := ⟨m - 1, by omega⟩
  refine ⟨m, by omega, ?_⟩
  rw [List.append_assoc, List.cons_append, List.append_assoc, List.singleton_append,
    show n + (k + 1) = n + 1 + k by omega, hread, continuedWithin, skip_cons (by decide)]
  simp only [skip_quote, string?_doubleQuoted, Option.bind_some]
  rw [skip_cons (by decide)]
  rfl

/-- What neither an identifier nor an expression goes on with. -/
def Stops (rest : List Char) : Prop :=
  ends rest = true ∧ ∀ c, (skip rest).head? = some c → c ≠ '.' ∧ c ≠ '[' ∧ c ≠ '('

theorem Stops.cons {c : Char} (hends : ends (c :: rest) = true) (hspace : isSpace c = false)
    (hmark : c ≠ '.' ∧ c ≠ '[' ∧ c ≠ '(') : Stops (c :: rest) := by
  refine ⟨hends, ?_⟩
  rw [skip_cons hspace]
  rintro d ⟨⟩
  exact hmark

theorem continuedWithin_of_stops (h : Stops rest) (n : Nat) :
    continuedWithin (n + 1) e rest = some (e, skip rest) := by
  have hmark := h.2
  rw [continuedWithin]
  split
  · rename_i hskip
    rw [hskip] at hmark
    exact absurd rfl (hmark _ rfl).1
  · rename_i hskip
    rw [hskip] at hmark
    exact absurd rfl (hmark _ rfl).2.1
  · rename_i hskip
    rw [hskip] at hmark
    exact absurd rfl (hmark _ rfl).2.2
  · rfl

/-- A text that spells an expression is read as this expression where nothing goes on with it. -/
theorem Spells.expressionWithin_eq (h : Spells cs e k) (hrest : Stops rest) {n : Nat} (hn : k < n) :
    expressionWithin n (cs ++ rest) = some (e, skip rest) := by
  obtain ⟨m, hm, hread⟩ := h (n - k) rest hrest.1
  obtain ⟨m, rfl⟩ : ∃ m', m = m' + 1 := ⟨m - 1, by omega⟩
  rw [show n = n - k + k by omega, hread, continuedWithin_of_stops hrest]

theorem Spells.call (h : Spells cs e k) (ha : Spells ds a j) :
    Spells (cs ++ '(' :: (ds ++ [')'])) (.call e a) (k + j + 2) := by
  intro n rest _
  have hopen : ends ('(' :: (ds ++ ')' :: rest)) = true := rfl
  have hclose : Stops (')' :: rest) := .cons rfl rfl (by decide)
  obtain ⟨m, hm, hread⟩ := h (n + j + 2) _ hopen
  obtain ⟨m, rfl⟩ : ∃ m', m = m' + 1 := ⟨m - 1, by omega⟩
  refine ⟨m, by omega, ?_⟩
  rw [List.append_assoc, List.cons_append, List.append_assoc, List.singleton_append,
    show n + (k + j + 2) = n + j + 2 + k by omega, hread, continuedWithin, skip_cons (by decide)]
  have hskip : skip (')' :: rest) = ')' :: rest := skip_cons rfl
  -- what the function leaves of the number is enough for the argument
  simp only [ha.expressionWithin_eq hclose (show j < m by omega), Option.bind_some, hskip]

/-- A line feed behind an expression is skipped. -/
theorem Spells.append_feed (h : Spells cs e k) : Spells (cs ++ ['\n']) e k := by
  intro n rest hrest
  obtain ⟨m, hm, hread⟩ := h n ('\n' :: rest) rfl
  refine ⟨m, hm, ?_⟩
  rw [List.append_assoc, List.singleton_append, hread]
  cases m with
  | zero => rfl
  | succ m =>
    have hskip : skip ('\n' :: rest) = skip rest := rfl
    rw [continuedWithin, continuedWithin, hskip]

/-! ## Names of properties -/

/-- An identifier with a line feed behind it. -/
def EndsInFeed (name : String) : Prop :=
  ∃ identifier : String, isTypeName identifier = true ∧ name = identifier ++ "\n"

theorem not_endsInFeed_of_isTypeName (h : isTypeName name = true) : ¬ EndsInFeed name := by
  rintro ⟨identifier, -, rfl⟩
  have hfeed := isIdentifierPart_of_mem h (c := '\n') (by simp)
  exact absurd hfeed (by decide)

/-- The test for identifiers lets through a line feed at the end. -/
theorem isIdentifier_iff : isIdentifier name = true ↔ isTypeName name = true ∨ EndsInFeed name := by
  constructor
  · intro h
    unfold isIdentifier at h
    split at h
    · cases h
    rename_i c cs htext
    rw [Bool.and_eq_true, dropFinalNewline] at h
    split at h
    · rename_i hlast
      obtain ⟨init, rfl⟩ := List.getLast?_eq_some_iff.1 hlast
      rw [List.dropLast_concat] at h
      refine .inr ⟨String.ofList (c :: init), ?_, String.toList_injective (by simp [htext])⟩
      rw [isTypeName, String.toList_ofList]
      simp [h]
    · left
      rw [isTypeName, htext]
      simp [h]
  · rintro (h | ⟨identifier, h, rfl⟩)
    · have hpart := fun c => isIdentifierPart_of_mem h (c := c)
      unfold isTypeName at h
      split at h
      · cases h
      rename_i c cs htext
      have hlast : cs.getLast? ≠ some '\n' := by
        intro hlast
        have hfeed : '\n' ∈ name.toList := by
          rw [htext]
          exact List.mem_cons_of_mem c (List.mem_of_getLast? hlast)
        exact absurd (hpart _ hfeed) (by decide)
      rw [isIdentifier, htext]
      simpa [dropFinalNewline, hlast] using h
    · unfold isTypeName at h
      split at h
      · cases h
      rename_i c cs htext
      rw [isIdentifier, String.toList_append, htext]
      simpa [dropFinalNewline] using h

theorem notMem_of_isIdentifier (h : isIdentifier name = true) {c : Char}
    (hpart : isIdentifierPart c = false) (hfeed : c ≠ '\n') : c ∉ name.toList := by
  have hnone : ∀ {s : String}, isTypeName s = true → c ∉ s.toList := by
    intro s hs hc
    rw [isIdentifierPart_of_mem hs hc] at hpart
    cases hpart
  rcases isIdentifier_iff.1 h with htype | ⟨identifier, htype, rfl⟩
  · exact hnone htype
  · simp [hnone htype, hfeed]

theorem identifier?_doubleQuoted (s : String) (rest : List Char) :
    identifier? ((doubleQuoted s).toList ++ rest) = none := by
  rw [doubleQuoted, String.toList_ofList]
  rfl

section

variable (hname : ¬ EndsInFeed name)

include hname

theorem propertyKey_cases : isTypeName name = true ∧ propertyKey name = name ∨
    propertyKey name = doubleQuoted name := by
  unfold propertyKey
  split
  · rename_i h
    exact .inl ⟨(isIdentifier_iff.1 h).resolve_right hname, rfl⟩
  · exact .inr rfl

/-- The key of a property is one token, which denotes its name. -/
theorem key?_propertyKey (hrest : ends rest = true) :
    key? ((propertyKey name).toList ++ rest) = some (units name.toList, rest) := by
  rcases propertyKey_cases hname with ⟨h, heq⟩ | heq
  · rw [heq, key?, identifier?_append h hrest]
  · rw [heq, key?, identifier?_doubleQuoted]
    exact string?_doubleQuoted name rest

/-- The access to a property denotes its name. -/
theorem spells_memberAccess (htarget : isTypeName target = true) :
    Spells (memberAccess target name).toList (.member (.name target) (units name.toList)) 2 := by
  unfold memberAccess
  split
  · rename_i h
    have htype : isTypeName name = true := (isIdentifier_iff.1 h).resolve_right hname
    simpa using (spells_name htarget).member htype
  · simpa using (spells_name htarget).index name

end

theorem length_pos_of_isTypeName (h : isTypeName s = true) : 0 < s.toList.length := by
  unfold isTypeName at h
  split at h
  · cases h
  · rename_i htext
    simp [htext]

theorem length_lt_memberAccess (htarget : isTypeName target = true) (name : String) :
    2 < (memberAccess target name).toList.length + 1 := by
  have hpos := length_pos_of_isTypeName htarget
  unfold memberAccess
  split <;> simp only [String.toList_append, List.length_append, String.reduceToList,
    List.length_singleton] <;> omega

theorem Spells.expression?_memberAccess (h : Spells (memberAccess target name).toList e 2)
    (htarget : isTypeName target = true) :
    expression? (memberAccess target name).toList = some (e, []) := by
  have hstops : Stops [] := ⟨rfl, by simp [skip]⟩
  simpa [expression?, skip] using
    h.expressionWithin_eq hstops (length_lt_memberAccess htarget name)

theorem expression?_memberAccess (hname : ¬ EndsInFeed name) (htarget : isTypeName target = true) :
    expression? (memberAccess target name).toList =
      some (.member (.name target) (units name.toList), []) :=
  (spells_memberAccess hname htarget).expression?_memberAccess htarget

/-! ## Identifiers with a line feed behind them -/

section

variable (h : isTypeName s = true)

include h

theorem endsInFeed_append : EndsInFeed (s ++ "\n") := ⟨s, h, rfl⟩

theorem isIdentifier_append : isIdentifier (s ++ "\n") = true :=
  isIdentifier_iff.2 (.inr (endsInFeed_append h))

/-- The key is the identifier, and the line feed is white space behind it. -/
theorem key?_propertyKey_append (rest : List Char) :
    key? ((propertyKey (s ++ "\n")).toList ++ rest) = some (units s.toList, '\n' :: rest) := by
  have hread : identifier? (s.toList ++ '\n' :: rest) = some (s.toList, '\n' :: rest) :=
    identifier?_append h rfl
  rw [propertyKey, if_pos (isIdentifier_append h), String.toList_append, List.append_assoc, key?]
  simp [hread]

theorem spells_memberAccess_append (htarget : isTypeName target = true) :
    Spells (memberAccess target (s ++ "\n")).toList (.member (.name target) (units s.toList))
      2 := by
  rw [memberAccess, if_pos (isIdentifier_append h)]
  simpa using ((spells_name htarget).member h).append_feed

theorem expression?_memberAccess_append (htarget : isTypeName target = true) :
    expression? (memberAccess target (s ++ "\n")).toList =
      some (.member (.name target) (units s.toList), []) :=
  (spells_memberAccess_append h htarget).expression?_memberAccess htarget

end

theorem units_ne_append (s : String) : units s.toList ≠ units (s ++ "\n").toList := by
  intro heq
  simpa using units_injective heq

/-! ## What keys and accesses denote -/

theorem propertyKey_isToken_iff :
    isTypeName (propertyKey name) = true ∨ propertyKey name = doubleQuoted name ↔
      ¬ EndsInFeed name := by
  refine ⟨?_, fun hname => ?_⟩
  · rintro hkey ⟨s, h, rfl⟩
    rw [propertyKey, if_pos (isIdentifier_append h)] at hkey
    rcases hkey with htype | hquoted
    · exact not_endsInFeed_of_isTypeName htype (endsInFeed_append h)
    · have hnone := identifier?_doubleQuoted (s ++ "\n") []
      rw [← hquoted, String.toList_append, List.append_nil, identifier?_append h rfl] at hnone
      cases hnone
  · rcases propertyKey_cases hname with ⟨htype, heq⟩ | heq
    · exact .inl (heq.symm ▸ htype)
    · exact .inr heq

theorem key?_propertyKey_iff :
    key? (propertyKey name).toList = some (units name.toList, []) ↔ ¬ EndsInFeed name := by
  refine ⟨?_, fun hname => ?_⟩
  · rintro hkey ⟨s, h, rfl⟩
    have hread := key?_propertyKey_append h []
    rw [List.append_nil, hkey, Option.some.injEq, Prod.mk.injEq] at hread
    exact units_ne_append s hread.1.symm
  · have hread : key? ((propertyKey name).toList ++ []) = some (units name.toList, []) :=
      key?_propertyKey hname rfl
    rwa [List.append_nil] at hread

theorem expression?_memberAccess_iff (htarget : isTypeName target = true) :
    expression? (memberAccess target name).toList =
      some (.member (.name target) (units name.toList), []) ↔ ¬ EndsInFeed name := by
  refine ⟨?_, fun hname => expression?_memberAccess hname htarget⟩
  rintro haccess ⟨s, h, rfl⟩
  rw [expression?_memberAccess_append h htarget, Option.some.injEq, Prod.mk.injEq,
    Expr.member.injEq] at haccess
  exact units_ne_append s haccess.1.2

/-- A name has a property that its key and every access to it denote. -/
theorem exists_denoted (htarget : isTypeName target = true) (name : String) :
    ∃ property gap, skip gap = [] ∧
      (∀ rest, ends rest = true →
        key? ((propertyKey name).toList ++ rest) = some (property, gap ++ rest)) ∧
      Spells (memberAccess target name).toList (.member (.name target) property) 2 := by
  by_cases hfeed : EndsInFeed name
  · obtain ⟨s, h, rfl⟩ := hfeed
    exact ⟨_, ['\n'], rfl, fun rest _ => key?_propertyKey_append h rest,
      spells_memberAccess_append h htarget⟩
  · exact ⟨_, [], rfl, fun rest hrest => key?_propertyKey hfeed hrest,
      spells_memberAccess hfeed htarget⟩

/-- A key and an access lead to the same property, whatever its name is. -/
theorem exists_property (htarget : isTypeName target = true) (name : String) :
    ∃ property gap, skip gap = [] ∧
      (∀ rest, ends rest = true →
        key? ((propertyKey name).toList ++ rest) = some (property, gap ++ rest)) ∧
      expression? (memberAccess target name).toList =
        some (.member (.name target) property, []) := by
  obtain ⟨property, gap, hgap, hkey, hspells⟩ := exists_denoted htarget name
  exact ⟨property, gap, hgap, hkey, hspells.expression?_memberAccess htarget⟩

/-- Names without a line feed behind an identifier have different keys if they are different. -/
theorem eq_of_key?_propertyKey {other : String} (hname : ¬ EndsInFeed name)
    (hother : ¬ EndsInFeed other)
    (heq : key? (propertyKey name).toList = key? (propertyKey other).toList) : name = other := by
  rw [key?_propertyKey_iff.2 hname, key?_propertyKey_iff.2 hother, Option.some.injEq,
    Prod.mk.injEq] at heq
  exact String.toList_injective (units_injective heq.1)

/-- The key and the access denote the property of the name, and no other name has this key, unless
the name is an identifier with a line feed behind it. They denote the same property for every
name. -/
theorem denotes_name_iff (htarget : isTypeName target = true) (name : String) :
    (isTypeName (propertyKey name) = true ∨ propertyKey name = doubleQuoted name ↔
      ¬ EndsInFeed name) ∧
    (key? (propertyKey name).toList = some (units name.toList, []) ↔ ¬ EndsInFeed name) ∧
    (expression? (memberAccess target name).toList =
      some (.member (.name target) (units name.toList), []) ↔ ¬ EndsInFeed name) ∧
    (∃ property gap, skip gap = [] ∧
      (∀ rest, ends rest = true →
        key? ((propertyKey name).toList ++ rest) = some (property, gap ++ rest)) ∧
      expression? (memberAccess target name).toList =
        some (.member (.name target) property, [])) ∧
    ∀ other, ¬ EndsInFeed name → ¬ EndsInFeed other →
      key? (propertyKey name).toList = key? (propertyKey other).toList → name = other :=
  ⟨propertyKey_isToken_iff, key?_propertyKey_iff, expression?_memberAccess_iff htarget,
    exists_property htarget name, fun _ hname hother => eq_of_key?_propertyKey hname hother⟩

theorem denotes_name_hyphen : isTypeName "params" = true ∧ ¬ EndsInFeed "x-id" ∧
    key? (propertyKey "x-id").toList = some (units "x-id".toList, []) ∧
    expression? (memberAccess "params" "x-id").toList =
      some (.member (.name "params") (units "x-id".toList), []) := by
  have htarget : isTypeName "params" = true := by decide
  have hkey : isTypeName (propertyKey "x-id") = true ∨
      propertyKey "x-id" = doubleQuoted "x-id" := .inr rfl
  obtain ⟨htoken, hread, haccess, -, -⟩ := denotes_name_iff htarget "x-id"
  have hname := htoken.1 hkey
  exact ⟨htarget, hname, hread.2 hname, haccess.2 hname⟩

/-- The keys of two names denote one property. -/
theorem key_line_feed : key? (propertyKey "id\n").toList ≠ some (units "id\n".toList, []) ∧
    expression? (memberAccess "params" "id\n").toList =
      expression? (memberAccess "params" "id").toList ∧
    key? (propertyKey "id\n" ++ ": string").toList =
      some (units "id".toList, "\n: string".toList) ∧
    key? (propertyKey "id" ++ ": string").toList = some (units "id".toList, ": string".toList) := by
  decide +kernel

end TypedClient.Script
