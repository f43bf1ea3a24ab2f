import Mathlib.Data.List.Chain
import TypedClient.Client.Url
import TypedClient.Proofs.Script.Template

/-!
# Addresses mean their paths

The address of a request is a template literal. Read as one, it is the base address, followed by the
path with a value for every group that names a path parameter (`address_of_addressable`). For this
the characters of the path have to stand for themselves in a template. Only backticks are escaped,
so a backslash of the path begins an escape, and a dollar sign with a brace behind it a
substitution.
-/

namespace TypedClient.Url

open Text Name Script

/-! ## Pieces of a path -/

/-- What a piece is in the path. -/
def Piece.source : Piece → List Char
  | .char c => [c]
  | .group name => '\x7b' :: (name ++ ['\x7d'])

variable {cs g before after : List Char} {pending : Option (List Char)} {p : Piece}

theorem flatMap_map_eq {α : Type} {f : Char → α} {g : α → List Char} (h : ∀ c, g (f c) = [c])
    (cs : List Char) : (cs.map f).flatMap g = cs := by
  rw [List.flatMap_map, funext h]
  exact List.flatMap_singleton' cs

theorem flatMap_char (cs : List Char) : (cs.map Piece.char).flatMap Piece.source = cs :=
  flatMap_map_eq (fun _ => rfl) cs

/-- No character is lost in the pieces. -/
theorem flatMap_piecesFrom (pending : Option (List Char)) (cs : List Char) :
    (piecesFrom pending cs).flatMap Piece.source =
      (pending.map fun p => '\x7b' :: p).getD [] ++ cs := by
  fun_induction piecesFrom pending cs with
  | case1 => rfl
  | case2 pending => simp [Piece.source, flatMap_char]
  | case3 rest ih => simpa using ih
  | case4 c rest hopen ih => simpa [Piece.source] using ih
  | case5 pending rest ih => simp [Piece.source, flatMap_char, ih]
  | case6 pending rest hempty hopen ih => simp_all [Piece.source]
  | case7 pending rest hempty hopen ih => simp_all [Piece.source]
  | case8 pending c rest hopen hclose ih => simpa using ih

theorem flatMap_pieces (path : List Char) : (pieces path).flatMap Piece.source = path :=
  flatMap_piecesFrom none path

/-- A group is not empty and has no braces inside. -/
def IsGroup (g : List Char) : Prop :=
  g ≠ [] ∧ '\x7b' ∉ g ∧ '\x7d' ∉ g

theorem isGroup_of_mem_piecesFrom (hpending : ∀ p, pending = some p → '\x7b' ∉ p ∧ '\x7d' ∉ p)
    (h : Piece.group g ∈ piecesFrom pending cs) : IsGroup g := by
  fun_induction piecesFrom pending cs with
  | case1 => simp at h
  | case2 pending => simp at h
  | case3 rest ih => exact ih (by simp) h
  | case4 c rest hopen ih => exact ih (by simp) (by simpa using h)
  | case5 pending rest ih => exact ih (by simp) (by simpa using h)
  | case6 pending rest hempty hopen ih => exact ih (by simp) (by simpa using h)
  | case7 pending rest hempty hopen ih =>
    rcases List.mem_cons.1 h with heq | h
    · have hne : pending ≠ [] := fun hnil => hempty (List.isEmpty_iff.2 hnil)
      rw [Piece.group.inj heq]
      exact ⟨hne, hpending pending rfl⟩
    · exact ih (by simp) h
  | case8 pending c rest hopen hclose ih =>
    -- no brace is kept pending: an opening one begins anew, a closing one ends the group
    refine ih ?_ h
    rintro p ⟨⟩
    obtain ⟨hpopen, hpclose⟩ := hpending pending rfl
    simp [hpopen, hpclose, Ne.symm hopen, Ne.symm hclose]

theorem isGroup_of_mem_pieces {path : List Char} (h : Piece.group g ∈ pieces path) : IsGroup g :=
  isGroup_of_mem_piecesFrom (by simp) h

theorem piecesFrom_append_open (pending : Option (List Char)) (before rest : List Char) :
    piecesFrom pending (before ++ '\x7b' :: rest) =
      piecesFrom pending before ++ piecesFrom (some []) rest := by
  fun_induction piecesFrom pending before with
  | case1 => rfl
  | case2 pending => simp [piecesFrom]
  | case3 rest ih => simpa [piecesFrom] using ih
  | case4 c rest hopen ih => simp [piecesFrom, hopen, ih]
  | case5 pending rest ih => simp [piecesFrom, ih]
  | case6 pending rest hempty hopen ih => simp_all [piecesFrom]
  | case7 pending rest hempty hopen ih => simp_all [piecesFrom]
  | case8 pending c rest hopen hclose ih => simp [piecesFrom, hopen, hclose, ih]

theorem piecesFrom_group (pending after : List Char) (hopen : '\x7b' ∉ g) (hclose : '\x7d' ∉ g)
    (hne : pending ++ g ≠ []) : piecesFrom (some pending) (g ++ '\x7d' :: after) =
      .group (pending ++ g) :: piecesFrom none after := by
  induction g generalizing pending with
  | nil =>
    rw [List.append_nil] at hne
    simp [piecesFrom, hne]
  | cons c g ih =>
    rw [List.mem_cons, not_or] at hopen hclose
    rw [List.cons_append, piecesFrom, if_neg (Ne.symm hopen.1), if_neg (Ne.symm hclose.1),
      ih (pending ++ [c]) hopen.2 hclose.2 (by simp)]
    simp

/-- Every group of the path is a piece of its own. -/
theorem pieces_group (before after : List Char) (hg : IsGroup g) :
    pieces (before ++ '\x7b' :: (g ++ '\x7d' :: after)) =
      pieces before ++ .group g :: pieces after := by
  rw [pieces, piecesFrom_append_open, piecesFrom_group [] after hg.2.1 hg.2.2 (by simpa using hg.1)]
  rfl

/-! ## Parts of an address -/

/-- A part of an address: a character of the path, or the value of a path parameter. -/
inductive Part where
  | char (c : Char)
  | parameter (name : String)
  deriving DecidableEq, Repr

/-- A group that names a path parameter is one part, any other piece is its characters. -/
def Piece.parts (declared : List String) : Piece → List Part
  | .char c => [.char c]
  | .group name =>
    if String.ofList name ∈ declared then [.parameter (String.ofList name)]
    else (Piece.group name).source.map .char

/-- The parts of the address for a path, given the names of the path parameters. -/
def parts (declared : List String) (path : String) : List Part :=
  (pieces path.toList).flatMap (Piece.parts declared)

/-- What a part is in the path. -/
def Part.origin : Part → List Char
  | .char c => [c]
  | .parameter name => '\x7b' :: (name.toList ++ ['\x7d'])

section

variable {declared : List String} {path : String}

/-- The parts are the path, nothing lost. -/
theorem flatMap_origin_parts (declared : List String) (path : String) :
    (parts declared path).flatMap Part.origin = path.toList := by
  have hpiece : ∀ p : Piece, (p.parts declared).flatMap Part.origin = p.source := by
    intro p
    cases p with
    | char c => rfl
    | group name =>
      rw [Piece.parts]
      split
      · simp [Part.origin, Piece.source]
      · exact flatMap_map_eq (fun _ => rfl) _
  rw [parts, List.flatMap_assoc, List.flatMap_congr fun p _ => hpiece p, flatMap_pieces]

/-- A parameter is a declared name in braces. -/
theorem declared_of_mem_parts {name : String} (h : .parameter name ∈ parts declared path) :
    name ∈ declared ∧ IsGroup name.toList := by
  obtain ⟨p, hp, hpart⟩ := List.mem_flatMap.1 h
  cases p with
  | char c => simp [Piece.parts] at hpart
  | group g =>
    rw [Piece.parts] at hpart
    split at hpart
    · rename_i hg
      obtain rfl : name = String.ofList g := by simpa using hpart
      exact ⟨hg, by simpa using isGroup_of_mem_pieces hp⟩
    · simp at hpart

/-- Every group in braces that names a path parameter is a part of its own. -/
theorem parts_group {name : String} (hname : name ∈ declared) (hgroup : IsGroup name.toList)
    (before after : String) : parts declared (before ++ "\x7b" ++ name ++ "\x7d" ++ after) =
      parts declared before ++ .parameter name :: parts declared after := by
  have hpath : (before ++ "\x7b" ++ name ++ "\x7d" ++ after).toList =
      before.toList ++ '\x7b' :: (name.toList ++ '\x7d' :: after.toList) := by simp
  rw [parts, hpath, pieces_group _ _ hgroup, List.flatMap_append, List.flatMap_cons, Piece.parts,
    String.ofList_toList, if_pos hname]
  rfl

end

/-- The path can be written as an address: its characters are no escapes and no line breaks that a
template changes, no dollar sign stands before a brace, and what is a parameter before backticks are
escaped is one thereafter, and the other way round. -/
structure Addressable (declared : List String) (path : String) : Prop where
  chars : ∀ c, .char c ∈ parts declared path → c ≠ '\\' ∧ c ≠ '\r'
  dollars : (parts declared path).IsChain fun a b => a = .char '$' → b ≠ .char '\x7b'
  names : ∀ name, .parameter name ∈ parts declared path → '`' ∉ name.toList ∧ ¬ EndsInFeed name
  groups : ∀ name, .group name ∈ pieces path.toList → String.ofList name ∉ declared →
    String.ofList (escapeBackticks name) ∉ declared

/-- A part in the template. -/
def Part.source : Part → List Char
  | .char c => if c = '`' then ['\\', '`'] else [c]
  | .parameter name => (substitution name).toList

/-! ### Escaping backticks -/

/-- A piece of the path after its backticks are escaped. -/
def Piece.escaped : Piece → List Piece
  | .char c => if c = '`' then [.char '\\', .char '`'] else [.char c]
  | .group name => [.group (escapeBackticks name)]

theorem escapeBackticks_append (cs ds : List Char) :
    escapeBackticks (cs ++ ds) = escapeBackticks cs ++ escapeBackticks ds :=
  List.flatMap_append

theorem escapeBackticks_cons (c : Char) (cs : List Char) : escapeBackticks (c :: cs) =
    (if c = '`' then ['\\', '`'] else [c]) ++ escapeBackticks cs := rfl

theorem flatMap_escaped_char (cs : List Char) :
    (cs.map Piece.char).flatMap Piece.escaped = (escapeBackticks cs).map .char := by
  induction cs with
  | nil => rfl
  | cons c cs ih =>
    rw [List.map_cons, List.flatMap_cons, ih, escapeBackticks_cons, List.map_append]
    by_cases hc : c = '`' <;> simp [Piece.escaped, hc]

theorem escapeBackticks_eq_self (h : '`' ∉ cs) : escapeBackticks cs = cs := by
  induction cs with
  | nil => rfl
  | cons c cs ih =>
    rw [List.mem_cons, not_or] at h
    rw [escapeBackticks_cons, ih h.2, if_neg (Ne.symm h.1), List.singleton_append]

theorem escapeBackticks_nil : escapeBackticks [] = [] := rfl

theorem escapeBackticks_eq_nil : escapeBackticks cs = [] ↔ cs = [] := by
  cases cs with
  | nil => simp [escapeBackticks_nil]
  | cons c cs =>
    rw [escapeBackticks_cons]
    split <;> simp

/-- The pieces can be found before or after backticks are escaped. -/
theorem piecesFrom_escapeBackticks (pending : Option (List Char)) (cs : List Char) :
    piecesFrom (pending.map escapeBackticks) (escapeBackticks cs) =
      (piecesFrom pending cs).flatMap Piece.escaped := by
  -- no brace comes or goes with the backslashes, so groups begin and end at the same places
  fun_induction piecesFrom pending cs with
  | case1 => rfl
  | case2 pending => simp [escapeBackticks_nil, piecesFrom, Piece.escaped, flatMap_escaped_char]
  | case3 rest ih =>
    rw [← ih, escapeBackticks_cons]
    simp [piecesFrom, escapeBackticks_nil]
  | case4 c rest hopen ih =>
    rw [List.flatMap_cons, ← ih, escapeBackticks_cons]
    by_cases hc : c = '`' <;> simp [piecesFrom, Piece.escaped, hc, hopen]
  | case5 pending rest ih =>
    rw [escapeBackticks_cons]
    simp [piecesFrom, Piece.escaped, flatMap_escaped_char, ← ih, escapeBackticks_nil]
  | case6 pending rest hempty hopen ih =>
    rw [escapeBackticks_cons]
    simp_all [piecesFrom, Piece.escaped, escapeBackticks_nil]
  | case7 pending rest hempty hopen ih =>
    rw [escapeBackticks_cons]
    simp_all [piecesFrom, Piece.escaped, escapeBackticks_eq_nil]
  | case8 pending c rest hopen hclose ih =>
    rw [← ih, escapeBackticks_cons]
    by_cases hc : c = '`'
    · simp [piecesFrom, hc, escapeBackticks_append, escapeBackticks_cons, escapeBackticks_nil]
    · simp [piecesFrom, hc, hopen, hclose, escapeBackticks_append, escapeBackticks_cons,
        escapeBackticks_nil]

theorem pieces_escapeBackticks (path : List Char) :
    pieces (escapeBackticks path) = (pieces path).flatMap Piece.escaped :=
  piecesFrom_escapeBackticks none path

theorem flatMap_source_char (cs : List Char) :
    (cs.map Part.char).flatMap Part.source = escapeBackticks cs := by
  rw [List.flatMap_map]
  rfl

variable {declared : List String} {path : String}

/-- The parts that a piece becomes in a template. Backticks in a group are escaped before the group
is looked up among the names of the path parameters. -/
def Piece.written (declared : List String) : Piece → List Part
  | .char c => [.char c]
  | .group name =>
    if String.ofList (escapeBackticks name) ∈ declared then
      [.parameter (String.ofList (escapeBackticks name))]
    else (Piece.group name).source.map .char

/-- The parts that stand in the template for a path. -/
def written (declared : List String) (path : String) : List Part :=
  (pieces path.toList).flatMap (Piece.written declared)

theorem toList_template (declared : List String) (path : String) :
    (template declared path).toList = (written declared path).flatMap Part.source := by
  rw [template, String.toList_ofList, pieces_escapeBackticks, written, List.flatMap_assoc,
    List.flatMap_assoc]
  refine List.flatMap_congr fun p _ => ?_
  cases p with
  | char c =>
    by_cases hc : c = '`' <;> simp [Piece.escaped, Piece.written, Piece.render, Part.source, hc]
  | group name =>
    by_cases hname : String.ofList (escapeBackticks name) ∈ declared
    · simp [Piece.escaped, Piece.written, Piece.render, Part.source, hname]
    · rw [Piece.written, if_neg hname, flatMap_source_char]
      simp [Piece.escaped, Piece.render, Piece.source, hname, escapeBackticks_append,
        escapeBackticks_cons, escapeBackticks_nil]

theorem parts_subset {p : Piece} (hp : p ∈ pieces path.toList) {part : Part}
    (hpart : part ∈ p.parts declared) : part ∈ parts declared path :=
  List.mem_flatMap.2 ⟨p, hp, hpart⟩

/-- The template has the parts of the address. -/
theorem Addressable.written_eq (h : Addressable declared path) :
    written declared path = parts declared path := by
  rw [written, parts]
  refine List.flatMap_congr fun p hp => ?_
  cases p with
  | char c => rfl
  | group name =>
    by_cases hname : String.ofList name ∈ declared
    · have hmem : Part.parameter (String.ofList name) ∈ parts declared path :=
        parts_subset hp (by simp [Piece.parts, hname])
      have hplain := (h.names _ hmem).1
      rw [String.toList_ofList] at hplain
      simp [Piece.written, Piece.parts, hname, escapeBackticks_eq_self hplain]
    · simp [Piece.written, Piece.parts, hname, h.groups name hp hname]

/-! ## Reading an address -/

/-- The value of a path parameter, encoded. -/
def encoded (name : String) : Expr :=
  .call (.name "encodeURIComponent")
    (.call (.name "String") (.member (.name "params") (units name.toList)))

/-- The base address. -/
def baseUrl : Expr :=
  .member (.name "this") (units "baseUrl".toList)

def Part.symbols : Part → List Symbol
  | .char c => (utf16Units c).map .unit
  | .parameter name => [.value (encoded name)]

/-- What a part is worth: a character its units, a parameter its encoded value. -/
def Part.value {V : Type} (w : World V) : Part → List Nat
  | .char c => utf16Units c
  | .parameter name => w.text (w.eval (encoded name))

theorem value_flatMap_symbols {V : Type} (w : World V) (ps : List Part) :
    w.value (ps.flatMap Part.symbols) = ps.flatMap (Part.value w) := by
  induction ps with
  | nil => rfl
  | cons p ps ih =>
    rw [List.flatMap_cons, w.value_append, ih, List.flatMap_cons]
    cases p with
    | char c => rw [Part.symbols, w.value_units, Part.value]
    | parameter name => simp [Part.symbols, World.value, Part.value]

theorem symbols_baseUrl (n : Nat) (rest : List Char) :
    Script.symbols (n + 1) ("$\x7bthis.baseUrl\x7d".toList ++ rest) =
      (Script.symbols n rest).map fun s => (.value baseUrl :: s.1, s.2) := by
  have hthis : Spells "this".toList (.name "this") 1 := spells_name (by decide)
  have hspells : Spells ("this".toList ++ '.' :: "baseUrl".toList) baseUrl 2 :=
    hthis.member (by decide)
  exact symbols_substitution hspells (by decide) n rest

/-- The expression in the substitution of a path parameter. -/
def encodedText (name : String) : List Char :=
  "encodeURIComponent".toList ++
    '(' :: (("String".toList ++ '(' :: ((memberAccess "params" name).toList ++ [')'])) ++ [')'])

theorem toList_substitution (name : String) :
    (substitution name).toList = '$' :: '\x7b' :: (encodedText name ++ ['\x7d']) := by
  have hopening : "$\x7bencodeURIComponent(String(".toList =
      '$' :: '\x7b' :: ("encodeURIComponent".toList ++ '(' :: ("String".toList ++ ['('])) := by
    decide
  have hclosing : "))\x7d".toList = [')', ')', '\x7d'] := by decide
  unfold substitution encodedText
  rw [String.toList_append, String.toList_append, hopening, hclosing]
  simp only [List.cons_append, List.nil_append, List.append_assoc]

theorem spells_encodedText {name : String} (hname : ¬ EndsInFeed name) :
    Spells (encodedText name) (encoded name) 8 := by
  have hencode : Spells "encodeURIComponent".toList (.name "encodeURIComponent") 1 :=
    spells_name (by decide)
  have hstring : Spells "String".toList (.name "String") 1 := spells_name (by decide)
  exact hencode.call (hstring.call (spells_memberAccess hname (by decide)))

theorem le_length_encodedText (name : String) : 8 ≤ (encodedText name).length := by
  have hlength : "encodeURIComponent".toList.length = 18 := by decide
  unfold encodedText
  rw [List.length_append, hlength]
  exact Nat.le_trans (by decide) (Nat.le_add_right 18 _)

theorem symbols_parameter {name : String} (hname : ¬ EndsInFeed name) (n : Nat)
    (rest : List Char) : Script.symbols (n + 1) ((substitution name).toList ++ rest) =
      (Script.symbols n rest).map fun s => (.value (encoded name) :: s.1, s.2) := by
  rw [toList_substitution, List.cons_append, List.cons_append, List.append_assoc,
    List.singleton_append]
  exact symbols_substitution (spells_encodedText hname) (le_length_encodedText name) n rest

/-- The parts stand in a template with each character for itself. -/
structure Faithful (ps : List Part) : Prop where
  chars : ∀ c, .char c ∈ ps → c ≠ '\\' ∧ c ≠ '\r'
  dollars : ps.IsChain fun a b => a = .char '$' → b ≠ .char '\x7b'
  names : ∀ name, .parameter name ∈ ps → ¬ EndsInFeed name

theorem Faithful.tail {p : Part} {ps : List Part} (h : Faithful (p :: ps)) : Faithful ps :=
  ⟨fun c hc => h.chars c (List.mem_cons_of_mem _ hc), (List.isChain_cons.1 h.dollars).2,
    fun name hname => h.names name (List.mem_cons_of_mem _ hname)⟩

theorem head?_source_ne {p : Part} (hp : p ≠ .char '\x7b') :
    p.source.head? ≠ some '\x7b' ∧ p.source ≠ [] := by
  cases p with
  | char c =>
    have hc : c ≠ '\x7b' := fun h => hp (h ▸ rfl)
    by_cases hquote : c = '`' <;> simp [Part.source, hquote, hc]
  | parameter name => simp [Part.source, toList_substitution]

/-- A dollar sign has no brace behind it. -/
theorem head?_flatMap_source_ne {ps : List Part}
    (h : (.char '$' :: ps).IsChain fun a b => a = .char '$' → b ≠ .char '\x7b')
    (rest : List Char) : (ps.flatMap Part.source ++ '`' :: rest).head? ≠ some '\x7b' := by
  cases ps with
  | nil => simp
  | cons p ps =>
    have hp : p ≠ .char '\x7b' := (List.isChain_cons.1 h).1 p rfl rfl
    obtain ⟨hhead, hne⟩ := head?_source_ne hp
    rw [List.flatMap_cons, List.append_assoc, List.head?_append_of_ne_nil _ hne]
    exact hhead

theorem Faithful.spans {c : Char} {ps : List Part} (h : Faithful (.char c :: ps))
    (rest : List Char) :
    Spans (Part.char c).source (utf16Units c) (ps.flatMap Part.source ++ '`' :: rest) := by
  rw [Part.source]
  split
  · rename_i hc
    rw [hc]
    exact spans_backtick _
  · rename_i hc
    obtain ⟨hslash, hreturn⟩ := h.chars c List.mem_cons_self
    refine spans_char hc hslash hreturn ?_
    rintro rfl
    exact head?_flatMap_source_ne h.dollars rest

/-- The parts are read one by one, up to the end of the template. -/
theorem Faithful.symbols_eq {ps : List Part} (h : Faithful ps) {n : Nat} (hn : ps.length < n)
    (rest : List Char) : Script.symbols n (ps.flatMap Part.source ++ '`' :: rest) =
      some (ps.flatMap Part.symbols, rest) := by
  -- a part uses up one of the substitutions at most
  induction ps generalizing n with
  | nil =>
    obtain ⟨n, rfl⟩ : ∃ m, n = m + 1 := ⟨n - 1, by simp at hn; omega⟩
    exact symbols_closed n rest
  | cons p ps ih =>
    obtain ⟨n, rfl⟩ : ∃ m, n = m + 1 := ⟨n - 1, by simp at hn; omega⟩
    rw [List.length_cons] at hn
    rw [List.flatMap_cons, List.flatMap_cons, List.append_assoc]
    cases p with
    | char c => rw [symbols_of_spans (h.spans rest), ih h.tail (by omega)]; rfl
    | parameter name =>
      rw [Part.source, symbols_parameter (h.names name List.mem_cons_self), ih h.tail (by omega)]
      rfl

theorem length_le_flatMap_source (ps : List Part) :
    ps.length ≤ (ps.flatMap Part.source).length := by
  induction ps with
  | nil => rfl
  | cons p ps ih =>
    have hpos : 0 < p.source.length := by
      cases p with
      | char c => by_cases hc : c = '`' <;> simp [Part.source, hc]
      | parameter name => simp [Part.source, toList_substitution]
    rw [List.flatMap_cons, List.length_append, List.length_cons]
    omega

/-- The literal of an address. -/
def literal (declared : List String) (path : String) : String :=
  "`$\x7bthis.baseUrl\x7d" ++ template declared path ++ "`"

theorem statement_eq (declared : List String) (path : String) (level : Int) :
    statement declared path level =
      indent level ++ "const url = " ++ literal declared path ++ ";\n" := by
  have hregroup (a b c d e f : String) :
      a ++ (b ++ c) ++ d ++ (e ++ f) = a ++ b ++ (c ++ d ++ e) ++ f := by
    simp only [String.append_assoc]
  exact hregroup (indent level) "const url = " "`$\x7bthis.baseUrl\x7d" (template declared path)
    "`" ";\n"

theorem toList_literal (declared : List String) (path : String) :
    (literal declared path).toList = '`' :: ("$\x7bthis.baseUrl\x7d".toList ++
      ((template declared path).toList ++ ['`'])) := by
  have happend (a b c : String) : (a ++ b ++ c).toList = a.toList ++ (b.toList ++ c.toList) := by
    simp only [String.toList_append, List.append_assoc]
  exact happend "`$\x7bthis.baseUrl\x7d" (template declared path) "`"

theorem Addressable.template?_literal (h : Addressable declared path) (rest : List Char) :
    template? ((literal declared path).toList ++ rest) =
      some (.value baseUrl :: (parts declared path).flatMap Part.symbols, rest) := by
  have hfaithful : Faithful (parts declared path) :=
    ⟨h.chars, h.dollars, fun name hname => (h.names name hname).2⟩
  have hlength := length_le_flatMap_source (parts declared path)
  rw [toList_literal, toList_template, h.written_eq, List.cons_append, List.append_assoc,
    List.append_assoc, List.singleton_append, template?, symbols_baseUrl,
    hfaithful.symbols_eq _ rest]
  · rfl
  · simp only [List.length_append, List.length_cons]
    omega

/-- For a path that can be written as an address, the statement has one template literal. It is
worth the base address and, behind it, what the parts of the path are worth: each group that names
a path parameter the encoded value of the parameter, every other character itself. -/
theorem address_of_addressable {declared : List String} {path : String}
    (h : Addressable declared path) (level : Int) : ∃ literal symbols,
      statement declared path level = indent level ++ "const url = " ++ literal ++ ";\n" ∧
      (∀ rest, template? (literal.toList ++ rest) = some (symbols, rest)) ∧
      ∀ {V : Type} (w : World V), w.value symbols =
        w.text (w.eval baseUrl) ++ (parts declared path).flatMap (Part.value w) := by
  refine ⟨literal declared path, _, statement_eq declared path level, h.template?_literal,
    fun w => ?_⟩
  rw [← value_flatMap_symbols]
  rfl

theorem parts_pets : parts ["petId"] "/pets/\x7bpetId\x7d" =
    "/pets/".toList.map .char ++ [.parameter "petId"] := by
  decide +kernel

/-- The path of a pet stands in its address with the encoded identifier of the pet. -/
theorem address_of_addressable_pets : Addressable ["petId"] "/pets/\x7bpetId\x7d" ∧
    ∃ literal symbols, statement ["petId"] "/pets/\x7bpetId\x7d" 2 =
        indent 2 ++ "const url = " ++ literal ++ ";\n" ∧
      template? literal.toList = some (symbols, []) ∧
      ∀ {V : Type} (w : World V), w.value symbols =
        w.text (w.eval baseUrl) ++
          (units "/pets/".toList ++ w.text (w.eval (encoded "petId"))) := by
  have hgroups : pieces "/pets/\x7bpetId\x7d".toList =
      "/pets/".toList.map .char ++ [.group "petId".toList] := by decide +kernel
  have hname : isTypeName "petId" = true := by decide
  have h : Addressable ["petId"] "/pets/\x7bpetId\x7d" := by
    constructor
    · rw [parts_pets]
      simp
    · rw [parts_pets]
      decide
    · rw [parts_pets]
      intro name hmem
      obtain rfl : name = "petId" := by simpa using hmem
      exact ⟨by decide, not_endsInFeed_of_isTypeName hname⟩
    · rw [hgroups]
      intro name hmem hnone
      obtain rfl : name = "petId".toList := by simpa using hmem
      exact absurd (by decide) hnone
  obtain ⟨literal, symbols, hstatement, hread, hvalue⟩ := address_of_addressable h 2
  refine ⟨h, literal, symbols, hstatement, by simpa using hread [], fun w => ?_⟩
  rw [hvalue w, parts_pets]
  simp [Part.value, units]

/-- A backslash makes an escape, at the end of the path it leaves the literal open, and a dollar
sign before a brace makes a substitution. -/
theorem not_address :
    (parts [] "/a\\b" = "/a\\b".toList.map .char ∧
      template? (literal [] "/a\\b").toList =
        some (.value baseUrl :: (units "/a\x08".toList).map .unit, [])) ∧
    template? (literal [] "/a\\" ++ ";\n").toList = none ∧
    (parts [] "/$\x7bx\x7d" = "/$\x7bx\x7d".toList.map .char ∧
      template? (literal [] "/$\x7bx\x7d").toList =
        some ([.value baseUrl, .unit 0x2f, .value (.name "x")], [])) := by
  decide +kernel

end TypedClient.Url
