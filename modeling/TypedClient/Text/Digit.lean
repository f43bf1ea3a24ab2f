import TypedClient.Text.Case
import TypedClient.Text.DigitTable

/-!
# Digits and numerals

Two classes that are easily taken for one: a *digit* is any character with a digit value, including
superscripts and circled numerals; a *decimal digit* is one of the ten digits of some script. Only
decimal digits form numerals.
-/

namespace TypedClient.Text

/-- The value of a decimal digit of any script. -/
def decimalValue? (c : Char) : Option Nat :=
  (decimalZeros.find? fun first => first ≤ c.toNat && c.toNat < first + 10).map (c.toNat - ·)

/-- The ASCII digit of the same value for a decimal digit; any other character as it is. -/
def asciiDigit (c : Char) : Char :=
  match decimalValue? c with
  | some d => Char.ofNat ('0'.toNat + d)
  | none => c

/-- Decimal digits and the digits that do not form numerals. -/
def isDigit (c : Char) : Bool :=
  (decimalValue? c).isSome || inRanges otherDigitRanges c

/-- A non-empty text of digits. -/
def isDigits (text : String) : Bool :=
  !text.isEmpty && text.toList.all isDigit

/-- A numeral with more digits is refused. -/
def numeralLimit : Nat := 4300

/-- The number that decimal digits of the given values write. -/
def ofDigitValues (values : List Nat) : Nat :=
  values.foldl (fun n d => 10 * n + d) 0

/-- The value of a numeral: a non-empty text of decimal digits, at most `numeralLimit` of them. -/
def numeralValue? (text : String) : Option Nat :=
  if text.isEmpty || numeralLimit < text.length then none
  else (text.toList.mapM decimalValue?).map ofDigitValues

end TypedClient.Text
