import Mathlib.Data.List.Basic
import TypedClient.Proofs.Toml.Strings

/-!
# Literals of the client's language

What a string literal denotes is a row of UTF-16 units. A literal is read character by character, up
to its delimiter or, in a template, up to the substitution that opens next (`read`). A piece of text
that leaves the reader between two characters adds its units (`Passes`), so what a literal denotes
is put together from its characters: a text in double quotes denotes itself
(`string?_doubleQuoted`, `string?_asciiQuoted`), one in single quotes only if it has no line break
(`string?_singleQuoted`).
-/

namespace TypedClient.Script

open Text

/-! ## Units -/

/-- The UTF-16 units of a code point. -/
def codeUnits (n : Nat) : List Nat :=
  if n < 0x10000 then [n]
  else [0xd800 + (n - 0x10000) / 0x400, 0xdc00 + (n - 0x10000) % 0x400]

/-- The UTF-16 units of a text. -/
def units (cs : List Char) : List Nat :=
  cs.flatMap utf16Units

theorem utf16Units_eq (c : Char) : utf16Units c = codeUnits c.toNat := rfl

theorem codeUnits_ne_nil (n : Nat) : codeUnits n ≠ [] := by
  unfold codeUnits
  split <;> simp

/-- The units of a character say where they end: no high unit is a character of its own. -/
theorem eq_of_utf16Units_append {c d : Char} {us vs : List Nat}
    (h : utf16Units c ++ us = utf16Units d ++ vs) : c = d ∧ us = vs := by
  have hc := toNat_lt_or c
  have hd := toNat_lt_or d
  rw [utf16Units_eq, utf16Units_eq] at h
  unfold codeUnits at h
  split at h <;> split at h
  · simp only [List.cons_append, List.nil_append, List.cons.injEq] at h
    exact ⟨Char.toNat_inj.1 h.1, h.2⟩
  · simp only [List.cons_append, List.nil_append, List.cons.injEq] at h
    omega
  · simp only [List.cons_append, List.nil_append, List.cons.injEq] at h
    omega
  · simp only [List.cons_append, List.nil_append, List.cons.injEq] at h
    exact ⟨Char.toNat_inj.1 (by omega), h.2.2⟩

/-- Different texts have different units. -/
theorem units_injective : ∀ {cs ds : List Char}, units cs = units ds → cs = ds
  | [], [], _ => rfl
  | [], d :: ds, h => by
    rw [units, units, List.flatMap_cons, List.flatMap_nil] at h
    exact absurd (List.append_eq_nil_iff.1 h.symm).1 (codeUnits_ne_nil _)
  | c :: cs, [], h => by
    rw [units, units, List.flatMap_cons, List.flatMap_nil] at h
    exact absurd (List.append_eq_nil_iff.1 h).1 (codeUnits_ne_nil _)
  | c :: cs, d :: ds, h => by
    obtain ⟨rfl, htail⟩ := eq_of_utf16Units_append h
    rw [units_injective htail]

/-! ## Reading -/

/-- What stands between the delimiters of a literal. -/
inductive Style where
  | quoted (quote : Char)
  | template

/-- What the reader is in the middle of. -/
inductive Phase where
  | between
  /-- Behind a backslash. -/
  | escape
  /-- Behind the escape of the character zero, which no digit follows. -/
  | zero
  /-- In an escape of so many digits that `left` follow the next one. -/
  | digits (left value : Nat)
  /-- Behind the letter of a code point. -/
  | letter
  /-- In the braces of a code point. -/
  | braces (value : Option Nat)
  /-- Behind a carriage return, to which a line feed belongs. -/
  | carriage
  /-- Behind a dollar sign, which a brace makes the start of a substitution. -/
  | dollar

/-- What ends the characters of a literal. -/
inductive Ending where
  | closed
  | substitution

/-- What a character does. -/
inductive Move where
  | go (units : List Nat) (phase : Phase)
  | stop (units : List Nat) (ending : Ending)

def Move.after (us : List Nat) : Move → Move
  | .go vs phase => .go (us ++ vs) phase
  | .stop vs ending => .stop (us ++ vs) ending

/-- A character that does not go on with anything. -/
def Style.begin? : Style → Char → Option Move
  | .quoted quote, c =>
    if c = quote then some (.stop [] .closed)
    else if c = '\\' then some (.go [] .escape)
    else if c = '\n' || c = '\r' then none
    else some (.go (utf16Units c) .between)
  | .template, c =>
    if c = '`' then some (.stop [] .closed)
    else if c = '\\' then some (.go [] .escape)
    else if c = '$' then some (.go [] .dollar)
    else if c = '\r' then some (.go [0x0a] .carriage)
    else some (.go (utf16Units c) .between)

/-- A character behind a backslash. A line break is left out, a digit other than zero is refused,
and what has no meaning stands for itself. -/
def escaped? (c : Char) : Option Move :=
  match c with
  | 'b' => some (.go [0x08] .between)
  | 't' => some (.go [0x09] .between)
  | 'n' => some (.go [0x0a] .between)
  | 'v' => some (.go [0x0b] .between)
  | 'f' => some (.go [0x0c] .between)
  | 'r' => some (.go [0x0d] .between)
  | '0' => some (.go [] .zero)
  | 'x' => some (.go [] (.digits 1 0))
  | 'u' => some (.go [] .letter)
  | '\r' => some (.go [] .carriage)
  | '\n' | '\u2028' | '\u2029' => some (.go [] .between)
  | c => if c.isDigit then none else some (.go (utf16Units c) .between)

def step (style : Style) : Phase → Char → Option Move
  | .between, c => style.begin? c
  | .escape, c => escaped? c
  | .zero, c => if c.isDigit then none else (style.begin? c).map (.after [0])
  | .digits left value, c => (Decimal.digitValue? c).map fun d =>
    match left with
    | 0 => .go [16 * value + d] .between
    | left + 1 => .go [] (.digits left (16 * value + d))
  | .letter, c =>
    if c = '\x7b' then some (.go [] (.braces none))
    else (Decimal.digitValue? c).map fun d => .go [] (.digits 2 d)
  | .braces value, c =>
    if c = '\x7d' then
      value.bind fun n => if n < 0x110000 then some (.go (codeUnits n) .between) else none
    else (Decimal.digitValue? c).map fun d => .go [] (.braces (some (16 * value.getD 0 + d)))
  | .carriage, c => if c = '\n' then some (.go [] .between) else style.begin? c
  | .dollar, c =>
    if c = '\x7b' then some (.stop [] .substitution) else (style.begin? c).map (.after [0x24])

/-- The characters of a literal up to their end: their units, what ends them, and what follows. -/
structure Chunk where
  units : List Nat
  ending : Ending
  rest : List Char

def Chunk.after (us : List Nat) (r : Chunk) : Chunk :=
  { r with units := us ++ r.units }

def read (style : Style) : Phase → List Char → Option Chunk
  | _, [] => none
  | phase, c :: cs =>
    match step style phase c with
    | none => none
    | some (.go us next) => (read style next cs).map (.after us)
    | some (.stop us ending) => some ⟨us, ending, cs⟩

/-- A string literal at the beginning of a text: what it denotes, and what follows it. -/
def string? : List Char → Option (List Nat × List Char)
  | [] => none
  | c :: cs =>
    if c = '"' || c = '\'' then
      (read (.quoted c) .between cs).map fun r => (r.units, r.rest)
    else none

/-! ## Pieces of literals -/

/-- The text adds these units and leaves the reader between two characters. -/
def Passes (style : Style) (cs : List Char) (us : List Nat) : Prop :=
  ∀ rest, read style .between (cs ++ rest) = (read style .between rest).map (.after us)

variable {style : Style} {c e quote : Char} {cs ds : List Char} {us vs : List Nat}

theorem Chunk.after_nil : Chunk.after [] = id := rfl

theorem Chunk.after_comp (us vs : List Nat) :
    Chunk.after us ∘ Chunk.after vs = Chunk.after (us ++ vs) := by
  funext r
  simp [Chunk.after]

theorem Passes.nil : Passes style [] [] := by
  intro rest
  rw [Chunk.after_nil, Option.map_id]
  rfl

theorem Passes.append (h : Passes style cs us) (h' : Passes style ds vs) :
    Passes style (cs ++ ds) (us ++ vs) := by
  intro rest
  rw [List.append_assoc, h, h', Option.map_map, Chunk.after_comp]

theorem passes_flatMap {f : Char → List Char} :
    ∀ {cs : List Char}, (∀ c ∈ cs, Passes style (f c) (utf16Units c)) →
      Passes style (cs.flatMap f) (units cs)
  | [], _ => .nil
  | c :: cs, h => by
    rw [List.flatMap_cons, units, List.flatMap_cons]
    exact (h c List.mem_cons_self).append
      (passes_flatMap fun d hd => h d (List.mem_cons_of_mem c hd))

theorem read_cons_of_go {phase next : Phase} (h : step style phase c = some (.go us next)) :
    read style phase (c :: cs) = (read style next cs).map (.after us) := by
  rw [read, h]

theorem passes_begin (h : style.begin? c = some (.go us .between)) : Passes style [c] us :=
  fun _ => read_cons_of_go h

theorem begin?_backslash (hquote : style ≠ .quoted '\\') :
    style.begin? '\\' = some (.go [] .escape) := by
  cases style with
  | quoted quote =>
    have hne : '\\' ≠ quote := fun h => hquote (h ▸ rfl)
    simp [Style.begin?, hne]
  | template => rfl

theorem passes_escaped (hquote : style ≠ .quoted '\\')
    (h : escaped? e = some (.go us .between)) : Passes style ['\\', e] us := by
  intro rest
  have hslash : step style .between '\\' = some (.go [] .escape) := begin?_backslash hquote
  have hletter : step style .escape e = some (.go us .between) := h
  rw [List.cons_append, List.cons_append, List.nil_append, read_cons_of_go hslash,
    read_cons_of_go hletter, Chunk.after_nil, Option.map_id]
  rfl

/-- An escape of four digits adds their unit. -/
theorem passes_hex (hquote : style ≠ .quoted '\\') {n : Nat} (hn : n < 0x10000) :
    Passes style ('\\' :: 'u' :: hex 4 n) [n] := by
  intro rest
  have hslash : step style .between '\\' = some (.go [] .escape) := begin?_backslash hquote
  have hletter : step style .escape 'u' = some (.go [] .letter) := rfl
  have hdigit : ∀ m < 16, Nat.digitChar m ≠ '\x7b' := by decide
  have hbrace : hexDigit (n / 16 / 16 / 16) ≠ '\x7b' := hdigit _ (Nat.mod_lt _ (by decide))
  have hfirst : step style .letter (hexDigit (n / 16 / 16 / 16)) =
      some (.go [] (.digits 2 (n / 16 / 16 / 16 % 16))) := by
    rw [step, if_neg hbrace, Toml.digitValue?_hexDigit]
    rfl
  have hvalue : 16 * (16 * (16 * (n / 16 / 16 / 16 % 16) + n / 16 / 16 % 16) + n / 16 % 16) +
      n % 16 = n := by omega
  have hmore : ∀ left value m : Nat, step style (.digits (left + 1) value) (hexDigit m) =
      some (.go [] (.digits left (16 * value + m % 16))) := by
    intro left value m
    rw [step, Toml.digitValue?_hexDigit]
    rfl
  have hlast : ∀ value m : Nat, step style (.digits 0 value) (hexDigit m) =
      some (.go [16 * value + m % 16] .between) := by
    intro value m
    rw [step, Toml.digitValue?_hexDigit]
    rfl
  simp only [hex, List.nil_append, List.cons_append]
  rw [read_cons_of_go hslash, read_cons_of_go hletter, read_cons_of_go hfirst,
    read_cons_of_go (hmore 1 _ _), read_cons_of_go (hmore 0 _ _), read_cons_of_go (hlast _ _),
    hvalue]
  simp only [Chunk.after_nil, Option.map_id, id]

theorem passes_plain (hquote : c ≠ quote) (hslash : c ≠ '\\') (hfeed : c ≠ '\n')
    (hreturn : c ≠ '\r') : Passes (.quoted quote) [c] (utf16Units c) :=
  passes_begin (by simp [Style.begin?, hquote, hslash, hfeed, hreturn])

/-! ## String literals -/

/-- What stands between two quotes and passes is what the literal denotes. -/
theorem string?_of_passes (hquote : quote = '"' ∨ quote = '\'') (h : Passes (.quoted quote) cs us)
    (rest : List Char) : string? (quote :: (cs ++ quote :: rest)) = some (us, rest) := by
  have hclose : read (.quoted quote) .between (quote :: rest) = some ⟨[], .closed, rest⟩ := by
    simp [read, step, Style.begin?]
  have hmark : (decide (quote = '"') || decide (quote = '\'')) = true := by
    rcases hquote with rfl | rfl <;> rfl
  rw [string?, if_pos hmark, h, hclose]
  simp [Chunk.after]

theorem escaped?_of_shortEscape? (h : shortEscape? c = some e) :
    escaped? e = some (.go (utf16Units c) .between) := by
  unfold shortEscape? at h
  split at h <;> cases h <;> rfl

theorem ne_of_shortEscape?_eq_none (h : shortEscape? c = none) :
    c ≠ '"' ∧ c ≠ '\\' ∧ c ≠ '\n' ∧ c ≠ '\r' := by
  refine ⟨?_, ?_, ?_, ?_⟩ <;> rintro rfl <;> simp [shortEscape?] at h

theorem utf16Units_of_lt (h : c.toNat < 0x10000) : utf16Units c = [c.toNat] := if_pos h

theorem passes_doubleQuotedChar (c : Char) :
    Passes (.quoted '"') (doubleQuotedChar c) (utf16Units c) := by
  unfold doubleQuotedChar
  split
  · rename_i e he
    exact passes_escaped (by simp) (escaped?_of_shortEscape? he)
  rename_i hnone
  split
  · rw [utf16Units_of_lt (by omega)]
    exact passes_hex (by simp) (by omega)
  · obtain ⟨hquote, hslash, hfeed, hreturn⟩ := ne_of_shortEscape?_eq_none hnone
    exact passes_plain hquote hslash hfeed hreturn

theorem passes_utf16Units (hquote : style ≠ .quoted '\\') (c : Char) :
    Passes style ((utf16Units c).flatMap fun unit => '\\' :: 'u' :: hex 4 unit)
      (utf16Units c) := by
  have hchar := toNat_lt_or c
  have hpair : ∀ {m n : Nat}, m < 0x10000 → n < 0x10000 →
      Passes style (('\\' :: 'u' :: hex 4 m) ++ ('\\' :: 'u' :: hex 4 n)) [m, n] :=
    fun hm hn => (passes_hex hquote hm).append (passes_hex hquote hn)
  rw [utf16Units_eq, codeUnits]
  split
  · rename_i hlow
    simpa using passes_hex hquote hlow
  · simpa using hpair (m := 0xd800 + (c.toNat - 0x10000) / 0x400)
      (n := 0xdc00 + (c.toNat - 0x10000) % 0x400) (by omega) (by omega)

theorem passes_asciiQuotedChar (c : Char) :
    Passes (.quoted '"') (asciiQuotedChar c) (utf16Units c) := by
  unfold asciiQuotedChar
  split
  · rename_i e he
    exact passes_escaped (by simp) (escaped?_of_shortEscape? he)
  rename_i hnone
  split
  · obtain ⟨hquote, hslash, hfeed, hreturn⟩ := ne_of_shortEscape?_eq_none hnone
    exact passes_plain hquote hslash hfeed hreturn
  · exact passes_utf16Units (by simp) c

/-- A text in double quotes is one literal, which denotes the text. -/
theorem string?_doubleQuoted (s : String) (rest : List Char) :
    string? ((doubleQuoted s).toList ++ rest) = some (units s.toList, rest) := by
  rw [doubleQuoted, String.toList_ofList, List.cons_append, List.append_assoc,
    List.singleton_append]
  exact string?_of_passes (.inl rfl) (passes_flatMap fun c _ => passes_doubleQuotedChar c) rest

theorem string?_asciiQuoted (s : String) (rest : List Char) :
    string? ((asciiQuoted s).toList ++ rest) = some (units s.toList, rest) := by
  rw [asciiQuoted, String.toList_ofList, List.cons_append, List.append_assoc,
    List.singleton_append]
  exact string?_of_passes (.inl rfl) (passes_flatMap fun c _ => passes_asciiQuotedChar c) rest

/-! ## Single quotes -/

theorem passes_singleQuotedChar (hfeed : c ≠ '\n') (hreturn : c ≠ '\r') :
    Passes (.quoted '\'') (singleQuotedChar c) (utf16Units c) := by
  unfold singleQuotedChar
  split
  · rename_i h
    refine passes_escaped (by simp) ?_
    rw [Bool.or_eq_true, decide_eq_true_eq, decide_eq_true_eq] at h
    rcases h with rfl | rfl <;> rfl
  · rename_i h
    rw [Bool.or_eq_true, decide_eq_true_eq, decide_eq_true_eq, not_or] at h
    exact passes_plain h.2 h.1 hfeed hreturn

theorem read_feed (hbreak : c = '\n' ∨ c = '\r') (rest : List Char) :
    read (.quoted '\'') .between (singleQuotedChar c ++ rest) = none := by
  rcases hbreak with rfl | rfl <;> rfl

/-- A line break between single quotes is no part of a literal. -/
theorem read_flatMap_singleQuotedChar (rest : List Char) : ∀ {cs : List Char},
    (∃ c ∈ cs, c = '\n' ∨ c = '\r') →
      read (.quoted '\'') .between (cs.flatMap singleQuotedChar ++ rest) = none
  | [], h => by simp at h
  | c :: cs, h => by
    rw [List.flatMap_cons, List.append_assoc]
    by_cases hc : c = '\n' ∨ c = '\r'
    · exact read_feed hc _
    · have htail : ∃ d ∈ cs, d = '\n' ∨ d = '\r' := by
        obtain ⟨d, hd, hbreak⟩ := h
        rcases List.mem_cons.1 hd with rfl | hd
        · exact absurd hbreak hc
        · exact ⟨d, hd, hbreak⟩
      rw [not_or] at hc
      rw [passes_singleQuotedChar hc.1 hc.2, read_flatMap_singleQuotedChar rest htail]
      rfl

theorem string?_singleQuoted_of_break {s : String} (h : ∃ c ∈ s.toList, c = '\n' ∨ c = '\r')
    (rest : List Char) : string? ((singleQuoted s).toList ++ rest) = none := by
  rw [singleQuoted, String.toList_ofList, List.cons_append, List.append_assoc]
  simp [string?, read_flatMap_singleQuotedChar _ h]

/-- A text in single quotes is one literal, which denotes the text, if it has no line break. -/
theorem string?_singleQuoted {s : String} (h : ¬ ∃ c ∈ s.toList, c = '\n' ∨ c = '\r')
    (rest : List Char) :
    string? ((singleQuoted s).toList ++ rest) = some (units s.toList, rest) := by
  rw [singleQuoted, String.toList_ofList, List.cons_append, List.append_assoc,
    List.singleton_append]
  refine string?_of_passes (.inr rfl) (passes_flatMap fun c hc => ?_) rest
  exact passes_singleQuotedChar (fun hfeed => h ⟨c, hc, .inl hfeed⟩)
    (fun hreturn => h ⟨c, hc, .inr hreturn⟩)

end TypedClient.Script
