import TypedClient.Text.Case
import TypedClient.Text.PrintTable
import TypedClient.Text.Surrogate

/-!
# Quoted texts

Three ways to write a text between quotes. A *double-quoted literal* escapes the quote, the
backslash and the control characters below U+0020; in its ASCII form every character outside the
printable ASCII range is written as one or two UTF-16 units. A *single-quoted literal* escapes the
quote and the backslash only. A *label* is the form for messages: it picks the quote that the text
does not contain and escapes whatever is not printable.
-/

namespace TypedClient.Text

/-- The lower-case hexadecimal digit of a number below sixteen. -/
def hexDigit (n : Nat) : Char :=
  Nat.digitChar (n % 16)

/-- The last `width` hexadecimal digits of a number. -/
def hex : Nat → Nat → List Char
  | 0, _ => []
  | width + 1, n => hex width (n / 16) ++ [hexDigit n]

/-- The escapes of a double-quoted literal that are a letter or the character itself. -/
def shortEscape? : Char → Option Char
  | '"' => some '"'
  | '\\' => some '\\'
  | '\n' => some 'n'
  | '\r' => some 'r'
  | '\t' => some 't'
  | '\x08' => some 'b'
  | '\x0c' => some 'f'
  | _ => none

/-- A character inside a double-quoted literal. -/
def doubleQuotedChar (c : Char) : List Char :=
  match shortEscape? c with
  | some e => ['\\', e]
  | none => if c.toNat < 0x20 then '\\' :: 'u' :: hex 4 c.toNat else [c]

/-- The double-quoted literal that denotes the text. -/
def doubleQuoted (text : String) : String :=
  String.ofList ('"' :: (text.toList.flatMap doubleQuotedChar ++ ['"']))

/-- The UTF-16 units of a character. -/
def utf16Units (c : Char) : List Nat :=
  let n := c.toNat
  if n < 0x10000 then [n]
  else [0xd800 + (n - 0x10000) / 0x400, 0xdc00 + (n - 0x10000) % 0x400]

/-- A character inside a double-quoted literal of ASCII characters. -/
def asciiQuotedChar (c : Char) : List Char :=
  match shortEscape? c with
  | some e => ['\\', e]
  | none =>
    if 0x20 ≤ c.toNat && c.toNat < 0x7f then [c]
    else (utf16Units c).flatMap fun unit => '\\' :: 'u' :: hex 4 unit

/-- The double-quoted literal of ASCII characters that denotes the text. -/
def asciiQuoted (text : String) : String :=
  String.ofList ('"' :: (text.toList.flatMap asciiQuotedChar ++ ['"']))

/-- A character inside a single-quoted literal. -/
def singleQuotedChar (c : Char) : List Char :=
  if c = '\\' || c = '\'' then ['\\', c] else [c]

/-- A text in single quotes, its quotes and backslashes escaped. -/
def singleQuoted (text : String) : String :=
  String.ofList ('\'' :: (text.toList.flatMap singleQuotedChar ++ ['\'']))

/-- Characters that a label shows as they are. -/
def isPrintable (c : Char) : Bool :=
  if c.toNat < 0x7f then 0x20 ≤ c.toNat else !inRanges unprintableRanges c

/-- The quote of a label: double if the text has a single quote and no double one. -/
def labelQuote (cs : List Char) : Char :=
  if cs.contains '\'' && !cs.contains '"' then '"' else '\''

/-- A character inside a label. -/
def labelChar (quote c : Char) : List Char :=
  if c = quote || c = '\\' then ['\\', c]
  else if c = '\n' then ['\\', 'n']
  else if c = '\r' then ['\\', 'r']
  else if c = '\t' then ['\\', 't']
  else if isPrintable c then [c]
  else if c.toNat < 0x100 then '\\' :: 'x' :: hex 2 c.toNat
  else if c.toNat < 0x10000 then '\\' :: 'u' :: hex 4 c.toNat
  else '\\' :: 'U' :: hex 8 c.toNat

/-- The text as a label. -/
def label (text : String) : String :=
  let quote := labelQuote text.toList
  String.ofList (quote :: (text.toList.flatMap (labelChar quote) ++ [quote]))

/-- A character of a document inside a label: a lone surrogate is escaped. -/
def documentLabelChar (quote c : Char) : List Char :=
  if isStandIn c then '\\' :: 'u' :: hex 4 (c.toNat - 0x100000) else labelChar quote c

/-- A text of a document as a label. -/
def documentLabel (text : String) : String :=
  let quote := labelQuote text.toList
  String.ofList (quote :: (text.toList.flatMap (documentLabelChar quote) ++ [quote]))

variable {c d : Char} {s : String}

theorem le_toNat_of_mem_hex : ∀ {width n : Nat}, c ∈ hex width n → 0x20 ≤ c.toNat
  | _ + 1, n, h => by
    have hdigit : ∀ d < 16, 0x20 ≤ (Nat.digitChar d).toNat := by decide
    rcases List.mem_append.1 h with h | h
    · exact le_toNat_of_mem_hex h
    · rw [List.mem_singleton.1 h]
      exact hdigit (n % 16) (Nat.mod_lt n (by decide))

theorem le_toNat_of_mem_unicodeEscape {width n : Nat} (h : c ∈ '\\' :: 'u' :: hex width n) :
    0x20 ≤ c.toNat := by
  rcases List.mem_cons.1 h with rfl | h
  · decide
  · rcases List.mem_cons.1 h with rfl | h
    · decide
    · exact le_toNat_of_mem_hex h

theorem le_toNat_of_mem_shortEscape {e : Char} (he : shortEscape? d = some e)
    (h : c ∈ ['\\', e]) : 0x20 ≤ c.toNat := by
  unfold shortEscape? at he
  split at he <;> cases he <;> revert h <;> simp <;> rintro (rfl | rfl) <;> decide

theorem le_toNat_of_mem_doubleQuotedChar (h : c ∈ doubleQuotedChar d) : 0x20 ≤ c.toNat := by
  unfold doubleQuotedChar at h
  split at h
  · rename_i he
    exact le_toNat_of_mem_shortEscape he h
  · split at h
    · exact le_toNat_of_mem_unicodeEscape h
    · rw [List.mem_singleton.1 h]
      omega

theorem le_toNat_of_mem_asciiQuotedChar (h : c ∈ asciiQuotedChar d) : 0x20 ≤ c.toNat := by
  unfold asciiQuotedChar at h
  split at h
  · rename_i he
    exact le_toNat_of_mem_shortEscape he h
  · split at h
    · rename_i hplain
      rw [Bool.and_eq_true, decide_eq_true_eq] at hplain
      rw [List.mem_singleton.1 h]
      exact hplain.1
    · obtain ⟨unit, -, h⟩ := List.mem_flatMap.1 h
      exact le_toNat_of_mem_unicodeEscape h

theorem le_toNat_of_mem_quoted {f : Char → List Char} (hf : ∀ c d, c ∈ f d → 0x20 ≤ c.toNat)
    (h : c ∈ '"' :: (s.toList.flatMap f ++ ['"'])) : 0x20 ≤ c.toNat := by
  rw [List.mem_cons, List.mem_append, List.mem_singleton, List.mem_flatMap] at h
  rcases h with rfl | ⟨d, -, h⟩ | rfl
  · decide
  · exact hf c d h
  · decide

/-- A double-quoted literal has no control character below U+0020. -/
theorem le_toNat_of_mem_doubleQuoted (h : c ∈ (doubleQuoted s).toList) : 0x20 ≤ c.toNat := by
  rw [doubleQuoted, String.toList_ofList] at h
  exact le_toNat_of_mem_quoted (fun _ _ => le_toNat_of_mem_doubleQuotedChar) h

theorem le_toNat_of_mem_asciiQuoted (h : c ∈ (asciiQuoted s).toList) : 0x20 ≤ c.toNat := by
  rw [asciiQuoted, String.toList_ofList] at h
  exact le_toNat_of_mem_quoted (fun _ _ => le_toNat_of_mem_asciiQuotedChar) h

end TypedClient.Text
