/-!
# Lone surrogates

A text of a document may write half of a pair of UTF-16 units on its own. Such a *lone surrogate* is
no character and cannot be encoded. The characters from U+10D800 to U+10DFFF, which have no meaning
of their own, stand for the lone surrogates; a document or a setting in which one of them occurs as
itself is told apart where it is read.
-/

namespace TypedClient.Text

/-- Whether a code point is half of a pair of UTF-16 units. -/
def isSurrogate (n : Nat) : Bool :=
  0xd800 ≤ n && n < 0xe000

theorem toNat_lt_or (c : Char) : c.toNat < 0xd800 ∨ 0xdfff < c.toNat ∧ c.toNat < 0x110000 :=
  c.valid

/-- No character is a lone surrogate. -/
theorem isSurrogate_toNat (c : Char) : isSurrogate c.toNat = false := by
  have hchar := toNat_lt_or c
  simp only [isSurrogate, Bool.and_eq_false_iff, decide_eq_false_iff_not]
  omega

/-- The character of a code point, or the one that stands for it. -/
def ofCodePoint (n : Nat) : Char :=
  Char.ofNat (if isSurrogate n then 0x100000 + n else n)

/-- Whether a character stands for a lone surrogate. -/
def isStandIn (c : Char) : Bool :=
  isSurrogate (c.toNat - 0x100000)

/-- Whether a text consists of characters alone. Any other text cannot be written to a file. -/
def isEncodable (text : String) : Bool :=
  !text.toList.any isStandIn

/-- The text with three replacement characters, one for each byte, in place of a lone surrogate. -/
def lossy (text : String) : String :=
  String.ofList (text.toList.flatMap fun c =>
    if isStandIn c then List.replicate 3 '\uFFFD' else [c])

end TypedClient.Text
