import Mathlib.Tactic.Tauto
import TypedClient.Proofs.TypeText.Operators

/-!
# Tokens of the text of a type

A lexer reads the text of a type character by character. A name goes on as long as it can, a literal
is taken for the text that it denotes, and white space only ends a name. `Lexes` says which tokens
the lexer finds in a text, whatever it has read before; `Closes` says in addition that no name is
left open at the end. Both put together texts piece by piece, and `lexes_render` gives the tokens of
a type.
-/

namespace TypedClient

open Text

/-- A token: a name, the text that a literal denotes, or a mark. -/
inductive Token where
  | name (s : String)
  | text (s : String)
  | mark (c : Char)
  deriving DecidableEq, Repr

namespace Lexer

/-- The characters of names of schemas: letters and digits of any script, `.`, `-` and `_`. -/
def isSchemaNameChar (c : Char) : Bool :=
  c.isAlphanum || c = '.' || c = '-' || c = '_' || (0x80 ≤ c.toNat && !isBlank c)

/-- The characters of names: an identifier may have a dollar sign too. -/
def isNameChar (c : Char) : Bool :=
  isSchemaNameChar c || c = '$'

def isMark (c : Char) : Bool :=
  ['\x7b', '\x7d', '(', ')', '<', '>', '|', '&', ',', ';', ':', '?'].contains c

/-- The character that an escape of one character denotes. -/
def unescape? : Char → Option Char
  | '"' => some '"'
  | '\\' => some '\\'
  | '/' => some '/'
  | 'n' => some '\n'
  | 'r' => some '\r'
  | 't' => some '\t'
  | 'b' => some '\x08'
  | 'f' => some '\x0c'
  | _ => none

def hexValue? (c : Char) : Option Nat :=
  "0123456789abcdef".toList.idxOf? c.toLower

/-- What the lexer is in the middle of. In the code of a character `left` more digits follow the
next one. -/
inductive Phase where
  | between
  | name (cs : List Char)
  | text (cs : List Char)
  | escape (cs : List Char)
  | code (cs : List Char) (left value : Nat)

/-- The tokens found so far and what the lexer is in the middle of. -/
structure State where
  found : List Token
  phase : Phase

/-- A character that does not go on with anything. -/
def begin? (found : List Token) (c : Char) : Option State :=
  if c = '"' then some ⟨found, .text []⟩
  else if isNameChar c then some ⟨found, .name [c]⟩
  else if isMark c then some ⟨found ++ [.mark c], .between⟩
  else if isBlank c then some ⟨found, .between⟩
  else none

def step (s : State) (c : Char) : Option State :=
  match s.phase with
  | .between => begin? s.found c
  | .name cs =>
    if isNameChar c then some ⟨s.found, .name (cs ++ [c])⟩
    else begin? (s.found ++ [.name (String.ofList cs)]) c
  | .text cs =>
    if c = '"' then some ⟨s.found ++ [.text (String.ofList cs)], .between⟩
    else if c = '\\' then some ⟨s.found, .escape cs⟩
    else if c = '\n' || c = '\r' then none
    else some ⟨s.found, .text (cs ++ [c])⟩
  | .escape cs =>
    if c = 'u' then some ⟨s.found, .code cs 3 0⟩
    else (unescape? c).map fun d => ⟨s.found, .text (cs ++ [d])⟩
  | .code cs (left + 1) value =>
    (hexValue? c).map fun d => ⟨s.found, .code cs left (16 * value + d)⟩
  | .code cs 0 value =>
    (hexValue? c).bind fun d =>
      if (16 * value + d).isValidChar then
        some ⟨s.found, .text (cs ++ [Char.ofNat (16 * value + d)])⟩
      else none

/-- The tokens found if the text ends here. -/
def State.ended (s : State) : Option (List Token) :=
  match s.phase with
  | .between => some s.found
  | .name cs => some (s.found ++ [.name (String.ofList cs)])
  | _ => none

def tokens? (text : String) : Option (List Token) :=
  (text.toList.foldlM step ⟨[], .between⟩).bind State.ended

/-- The text adds these tokens to any found before. -/
def Lexes (cs : List Char) (ts : List Token) : Prop :=
  ∀ found, ∃ s, cs.foldlM step ⟨found, .between⟩ = some s ∧ s.ended = some (found ++ ts)

/-- The text adds these tokens to any found before and leaves no name open. -/
def Closes (cs : List Char) (ts : List Token) : Prop :=
  ∀ found, cs.foldlM step ⟨found, .between⟩ = some ⟨found ++ ts, .between⟩

theorem Closes.lexes {cs : List Char} {ts : List Token} (h : Closes cs ts) : Lexes cs ts :=
  fun found => ⟨_, h found, rfl⟩

theorem Closes.nil : Closes [] [] := fun found => by simp

theorem Closes.append {a b : List Char} {x y : List Token} (ha : Closes a x) (hb : Closes b y) :
    Closes (a ++ b) (x ++ y) := by
  intro found
  rw [List.foldlM_append, ha found]
  simpa using hb (found ++ x)

theorem Closes.append_lexes {a b : List Char} {x y : List Token} (ha : Closes a x)
    (hb : Lexes b y) : Lexes (a ++ b) (x ++ y) := by
  intro found
  rw [List.foldlM_append, ha found]
  simpa using hb (found ++ x)

/-- After a complete text a character that is in no name is read as if nothing went before. -/
theorem step_of_ended {s : State} {ts : List Token} {c : Char} (hs : s.ended = some ts)
    (hc : isNameChar c = false) : step s c = step ⟨ts, .between⟩ c := by
  obtain ⟨found, phase⟩ := s
  unfold State.ended at hs
  cases phase with
  | between => cases hs; rfl
  | name cs => cases hs; simp [step, hc]
  | _ => cases hs

theorem Lexes.foldlM_cons {a : List Char} {x : List Token} (ha : Lexes a x) {c : Char}
    (hc : isNameChar c = false) (b : List Char) (found : List Token) :
    (a ++ c :: b).foldlM step ⟨found, .between⟩ =
      (c :: b).foldlM step ⟨found ++ x, .between⟩ := by
  obtain ⟨s, hs, hended⟩ := ha found
  rw [List.foldlM_append, hs]
  simp [step_of_ended hended hc]

theorem Lexes.append {a b : List Char} {x y : List Token} {c : Char} (ha : Lexes a x)
    (hc : isNameChar c = false) (hb : Lexes (c :: b) y) : Lexes (a ++ c :: b) (x ++ y) := by
  intro found
  rw [ha.foldlM_cons hc]
  simpa using hb (found ++ x)

theorem Lexes.append_closes {a b : List Char} {x y : List Token} {c : Char} (ha : Lexes a x)
    (hc : isNameChar c = false) (hb : Closes (c :: b) y) : Closes (a ++ c :: b) (x ++ y) := by
  intro found
  rw [ha.foldlM_cons hc]
  simpa using hb (found ++ x)

/-! ## Single tokens -/

theorem isNameChar_of_isMark {c : Char} (h : isMark c = true) : isNameChar c = false := by
  simp only [isMark, List.contains_iff_mem, List.mem_cons, List.not_mem_nil, or_false] at h
  rcases h with rfl | rfl | rfl | rfl | rfl | rfl | rfl | rfl | rfl | rfl | rfl | rfl <;> decide

theorem closes_mark {c : Char} (h : isMark c = true) : Closes [c] [.mark c] := by
  intro found
  have hq : c ≠ '"' := by rintro rfl; simp [isMark] at h
  simp [step, begin?, hq, isNameChar_of_isMark h, h]

theorem closes_space : Closes [' '] [] := by
  intro found
  simp [step, begin?, isNameChar, isSchemaNameChar, isMark, isBlank]

theorem closes_newline : Closes ['\n'] [] := by
  intro found
  simp [step, begin?, isNameChar, isSchemaNameChar, isMark, isBlank]

theorem closes_spaces : ∀ n, Closes (List.replicate n ' ') []
  | 0 => .nil
  | n + 1 => closes_space.append (closes_spaces n)

theorem closes_indent (level : Int) : Closes (indent level).toList [] := by
  rw [indent, String.toList_ofList]
  exact closes_spaces _

theorem foldlM_name (found : List Token) : ∀ (cs before : List Char),
    (∀ c ∈ cs, isNameChar c = true) →
      cs.foldlM step ⟨found, .name before⟩ = some ⟨found, .name (before ++ cs)⟩
  | [], before, _ => by simp
  | c :: cs, before, h => by
    have hc : isNameChar c = true := h c List.mem_cons_self
    have := foldlM_name found cs (before ++ [c]) fun d hd => h d (List.mem_cons_of_mem c hd)
    simpa [step, hc] using this

theorem lexes_name {n : String} (hne : n ≠ "") (h : n.toList.all isNameChar = true) :
    Lexes n.toList [.name n] := by
  intro found
  rw [List.all_eq_true] at h
  rcases hn : n.toList with _ | ⟨c, cs⟩
  · exact absurd (String.toList_eq_nil_iff.1 hn) hne
  · rw [hn] at h
    have hc : isNameChar c = true := h c List.mem_cons_self
    have hq : c ≠ '"' := by rintro rfl; revert hc; decide
    have := foldlM_name found cs [c] fun d hd => h d (List.mem_cons_of_mem c hd)
    refine ⟨_, by simpa [step, begin?, hq, hc] using this, ?_⟩
    simp [State.ended, ← hn]

theorem unescape?_of_shortEscape? {c e : Char} (h : shortEscape? c = some e) :
    unescape? e = some c ∧ e ≠ 'u' := by
  unfold shortEscape? at h
  split at h <;> cases h <;> decide

theorem hexValue?_hexDigit (n : Nat) : hexValue? (hexDigit n) = some (n % 16) := by
  have h : ∀ m < 16, hexValue? (Nat.digitChar m) = some m := by decide
  exact h (n % 16) (Nat.mod_lt _ (by omega))

theorem foldlM_hex (found : List Token) (before : List Char) {c : Char} (h : c.toNat < 0x10000) :
    (hex 4 c.toNat).foldlM step ⟨found, .code before 3 0⟩ =
      some ⟨found, .text (before ++ [c])⟩ := by
  have hvalue : 16 * (16 * (16 * (c.toNat / 16 / 16 / 16 % 16) + c.toNat / 16 / 16 % 16) +
      c.toNat / 16 % 16) + c.toNat % 16 = c.toNat := by omega
  have hvalid : c.toNat.isValidChar := c.valid
  simp [hex, step, hexValue?_hexDigit, hvalue, hvalid]

/-- Inside a literal a character is read as what it denotes. -/
theorem foldlM_doubleQuotedChar (found : List Token) (before : List Char) (c : Char) :
    (doubleQuotedChar c).foldlM step ⟨found, .text before⟩ =
      some ⟨found, .text (before ++ [c])⟩ := by
  unfold doubleQuotedChar
  split
  · rename_i e he
    obtain ⟨hback, hu⟩ := unescape?_of_shortEscape? he
    simp [step, hback, hu]
  · rename_i hs
    split
    · rename_i hlt
      have := foldlM_hex found before (c := c) (by omega)
      simpa [step] using this
    · have hne : c ≠ '"' ∧ c ≠ '\\' ∧ c ≠ '\n' ∧ c ≠ '\r' := by
        refine ⟨?_, ?_, ?_, ?_⟩ <;> rintro rfl <;> simp [shortEscape?] at hs
      simp [step, hne]

theorem foldlM_flatMap (found : List Token) : ∀ cs before : List Char,
    (cs.flatMap doubleQuotedChar).foldlM step ⟨found, .text before⟩ =
      some ⟨found, .text (before ++ cs)⟩
  | [], before => by simp
  | c :: cs, before => by
    rw [List.flatMap_cons, List.foldlM_append, foldlM_doubleQuotedChar]
    simpa using foldlM_flatMap found cs (before ++ [c])

/-- A double-quoted literal is read as the text that it was made from. -/
theorem closes_doubleQuoted (s : String) : Closes (doubleQuoted s).toList [.text s] := by
  intro found
  have := foldlM_flatMap found s.toList []
  simp [doubleQuoted, step, begin?, this]

end Lexer

namespace TypeExpr

open Lexer

/-- The names with a meaning of their own in the language of types. -/
def reservedNames : List String :=
  ["string", "number", "boolean", "unknown", "null", "Array", "Record"]

/-- A name that can be told from everything else in the text of a type. -/
structure IsSchemaName (n : String) : Prop where
  ne_empty : n ≠ ""
  chars : ∀ c ∈ n.toList, isSchemaNameChar c = true
  free : n ∉ reservedNames

/-- A property name without a line feed at its end. -/
def EndsOnLine (n : String) : Prop :=
  n.toList.getLast? ≠ some '\n'

def literalToken : Option String → Token
  | none => .name "null"
  | some s => .text s

def keyToken (n : String) : Token :=
  if Name.isIdentifier n then .name n else .text n

def operatorToken : Combination → Token
  | .union => .mark '|'
  | .intersection => .mark '&'

/-- The tokens of a property, given those of its type. -/
def propertyTokens (key : PropertyKey) (type : List Token) : List Token :=
  keyToken key.name :: ((if key.isOptional then [.mark '?'] else []) ++
    .mark ':' :: (type ++ [.mark ';']))

/-- The tokens of a member, given those of its text without parentheses. -/
def groupedTokens (isCompound : Bool) (type : List Token) : List Token :=
  if isCompound then .mark '(' :: (type ++ [.mark ')']) else type

mutual

def tokens : TypeExpr → List Token
  | .unknown => [.name "unknown"]
  | .string => [.name "string"]
  | .number => [.name "number"]
  | .boolean => [.name "boolean"]
  | .literals choices => List.intercalate [.mark '|'] (choices.map fun c => [literalToken c])
  | .named n => [.name n]
  | .array element => .name "Array" :: .mark '<' :: (tokens element ++ [.mark '>'])
  | .openRecord =>
    [.name "Record", .mark '<', .name "string", .mark ',', .name "unknown", .mark '>']
  | .object properties => .mark '\x7b' :: (tokensOfProperties properties ++ [.mark '\x7d'])
  | .combination how members => List.intercalate [operatorToken how] (tokensOfMembers members)

def tokensOfProperties : List (PropertyKey × TypeExpr) → List Token
  | [] => []
  | (key, type) :: rest => propertyTokens key (tokens type) ++ tokensOfProperties rest

def tokensOfMembers : List TypeExpr → List (List Token)
  | [] => []
  | type :: rest => groupedTokens type.isCompound (tokens type) :: tokensOfMembers rest

end

theorem tokensOfProperties_eq_flatMap : ∀ ps : List (PropertyKey × TypeExpr),
    tokensOfProperties ps = ps.flatMap fun p => propertyTokens p.1 (tokens p.2)
  | [] => by rw [tokensOfProperties, List.flatMap_nil]
  | (_, _) :: ps => by
    rw [tokensOfProperties, List.flatMap_cons, tokensOfProperties_eq_flatMap ps]

theorem tokensOfMembers_eq_map : ∀ ms : List TypeExpr,
    tokensOfMembers ms = ms.map fun m => groupedTokens m.isCompound (tokens m)
  | [] => by rw [tokensOfMembers, List.map_nil]
  | _ :: ms => by rw [tokensOfMembers, List.map_cons, tokensOfMembers_eq_map ms]

theorem isNameChar_of_isIdentifierPart {c : Char} (h : Name.isIdentifierPart c = true) :
    isNameChar c = true := by
  simp only [Name.isIdentifierPart, Name.isIdentifierStart, Bool.or_eq_true] at h
  simp only [isNameChar, isSchemaNameChar, Char.isAlphanum, Bool.or_eq_true]
  tauto

theorem lexes_propertyKey {n : String} (h : EndsOnLine n) :
    Lexes (Name.propertyKey n).toList [keyToken n] := by
  unfold Name.propertyKey keyToken
  split
  · rename_i hid
    refine lexes_name ?_ (List.all_eq_true.2 fun c hc => ?_)
    · rintro rfl
      simp [Name.isIdentifier] at hid
    · rcases mem_of_isIdentifier hid hc with hc | ⟨-, hlast⟩
      · exact isNameChar_of_isIdentifierPart hc
      · exact absurd hlast h
  · exact (closes_doubleQuoted n).lexes

/-- Texts with a separator between them have their tokens with the separator's between them. -/
theorem lexes_intercalate {α : Type} (sep : String) {c : Char} {cs : List Char} {x : List Token}
    (hsep : sep.toList = c :: cs) (hc : isNameChar c = false) (hx : Closes sep.toList x)
    (f : α → String) (g : α → List Token) :
    ∀ l : List α, (∀ a ∈ l, Lexes (f a).toList (g a)) →
      Lexes (String.intercalate sep (l.map f)).toList (List.intercalate x (l.map g))
  | [], _ => by simpa using Closes.nil.lexes
  | [a], h => by simpa using h a
  | a :: b :: l, h => by
    have hrest := lexes_intercalate sep hsep hc hx f g (b :: l) fun d hd =>
      h d (List.mem_cons_of_mem a hd)
    have := hx.append_lexes hrest
    rw [hsep] at this
    have := (h a List.mem_cons_self).append hc this
    simpa [String.toList_intercalate, List.intercalate_cons_cons, hsep] using this

theorem lexes_operator {α : Type} (how : Combination) (f : α → String) (g : α → List Token)
    (l : List α) (h : ∀ a ∈ l, Lexes (f a).toList (g a)) :
    Lexes (String.intercalate (operator how) (l.map f)).toList
      (List.intercalate [operatorToken how] (l.map g)) := by
  have hspace : isNameChar ' ' = false := by decide
  cases how with
  | union =>
    exact lexes_intercalate " | " rfl hspace
      (closes_space.append ((closes_mark (by decide)).append closes_space)) f g l h
  | intersection =>
    exact lexes_intercalate " & " rfl hspace
      (closes_space.append ((closes_mark (by decide)).append closes_space)) f g l h

theorem lexes_literal (choice : Option String) :
    Lexes (literal choice).toList [literalToken choice] := by
  cases choice with
  | none => exact lexes_name (by decide) (by decide)
  | some s => exact (closes_doubleQuoted s).lexes

theorem closes_enclosed {o c : Char} (ho : isMark o = true) (hc : isMark c = true)
    {cs : List Char} {ts : List Token} (h : Lexes cs ts) :
    Closes (o :: (cs ++ [c])) (.mark o :: (ts ++ [.mark c])) :=
  (closes_mark ho).append (h.append_closes (isNameChar_of_isMark hc) (closes_mark hc))

theorem closes_propertyLine (level : Int) {key : PropertyKey} (hkey : EndsOnLine key.name)
    {type : String} {ts : List Token} (h : Lexes type.toList ts) :
    Closes (propertyLine level key type).toList (propertyTokens key ts) := by
  have hindent := closes_indent (level + 1)
  have hend := h.append_closes (b := []) (by decide) (closes_mark (c := ';') (by decide))
  have hcolon := (closes_mark (c := ':') (by decide)).append (closes_space.append hend)
  have hname := lexes_propertyKey hkey
  by_cases ho : key.isOptional
  · have hmark := (closes_mark (c := '?') (by decide)).append hcolon
    have := hindent.append (hname.append_closes (by decide) hmark)
    simpa [propertyLine, propertyTokens, ho] using this
  · have := hindent.append (hname.append_closes (by decide) hcolon)
    simpa [propertyLine, propertyTokens, ho] using this

theorem closes_lines {α : Type} (f : α → String) (g : α → List Token) :
    ∀ l : List α, (∀ a ∈ l, Closes (f a).toList (g a)) →
      Closes (String.intercalate "\n" (l.map f)).toList (l.flatMap g)
  | [], _ => by simpa using Closes.nil
  | [a], h => by simpa using h a
  | a :: b :: l, h => by
    have hrest := closes_lines f g (b :: l) fun d hd => h d (List.mem_cons_of_mem a hd)
    have := (h a List.mem_cons_self).append (closes_newline.append hrest)
    simpa [String.toList_intercalate, List.intercalate_cons_cons] using this

theorem all_isPlain_of_isSchemaNameChar {cs : List Char}
    (h : ∀ c ∈ cs, isSchemaNameChar c = true) : cs.all Scans.isPlain = true :=
  List.all_eq_true.2 fun c hc => isPlain_of_class isSchemaNameChar (by decide) (h c hc)

/-- The text of a type at any level has the tokens of the type. -/
theorem lexes_render {t : TypeExpr} (h : WellFormed IsSchemaName EndsOnLine t) :
    ∀ level, Lexes (render level t).toList t.tokens := by
  have hplain : ∀ n, IsSchemaName n → n.toList.all Scans.isPlain = true :=
    fun n hn => all_isPlain_of_isSchemaNameChar hn.chars
  induction h with
  | unknown => exact fun _ => lexes_name (n := "unknown") (by decide) (by decide)
  | string => exact fun _ => lexes_name (n := "string") (by decide) (by decide)
  | number => exact fun _ => lexes_name (n := "number") (by decide) (by decide)
  | boolean => exact fun _ => lexes_name (n := "boolean") (by decide) (by decide)
  | openRecord =>
    intro level
    have hunknown : Lexes "unknown".toList [.name "unknown"] := lexes_name (by decide) (by decide)
    have hcomma := (closes_mark (c := ',') (by decide)).append_lexes
      (closes_space.append_lexes hunknown)
    have hstring := (lexes_name (n := "string") (by decide) (by decide)).append (by decide) hcomma
    have := (lexes_name (n := "Record") (by decide) (by decide)).append (by decide)
      (closes_enclosed (o := '<') (c := '>') rfl rfl hstring).lexes
    simpa [render, tokens] using this
  | @literals choices _ =>
    intro level
    exact lexes_operator .union literal (fun c => [literalToken c]) choices
      fun c _ => lexes_literal c
  | @named n hn =>
    have hchars : ∀ c ∈ n.toList, isNameChar c = true := fun c hc => by
      simp [isNameChar, hn.chars c hc]
    exact fun _ => lexes_name hn.ne_empty (List.all_eq_true.2 hchars)
  | @array element _ ih =>
    intro level
    have := (lexes_name (n := "Array") (by decide) (by decide)).append (by decide)
      (closes_enclosed (o := '<') (c := '>') rfl rfl (ih level)).lexes
    simpa [render, tokens] using this
  | @object properties hkey _ ih =>
    intro level
    have hline : ∀ p ∈ properties, Closes
        (propertyLine level p.1 (render (level + 1) p.2)).toList
        (propertyTokens p.1 (tokens p.2)) :=
      fun p hp => closes_propertyLine level (hkey p hp) (ih p hp (level + 1))
    have hlines := closes_lines _ _ properties hline
    have hend := closes_newline.append (closes_indent level)
    have hinner := closes_newline.append (hlines.append hend)
    have := closes_enclosed (o := '\x7b') (c := '\x7d') rfl rfl hinner.lexes
    simpa [render, tokens, renderProperties_eq_map, tokensOfProperties_eq_flatMap] using this.lexes
  | @combination how members _ hm ih =>
    intro level
    have := lexes_operator how (fun m => grouped (render level m))
      (fun m => groupedTokens m.isCompound (tokens m)) members (fun m hmem => by
        -- the printer looks at the text of the member, the tokens at the member
        have hshown := hasTopLevelOperator_of_scans (scans_render hplain (hm m hmem) level)
        simp only [grouped, groupedTokens, hshown]
        split
        · have := closes_enclosed (o := '(') (c := ')') rfl rfl (ih m hmem level)
          simpa using this.lexes
        · exact ih m hmem level)
    simpa [render, tokens, renderMembers_eq_map, tokensOfMembers_eq_map] using this

end TypeExpr

end TypedClient
