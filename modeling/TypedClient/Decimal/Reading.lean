import TypedClient.Decimal.Binary64
import TypedClient.Text.Digit
import TypedClient.Text.Blank

/-!
# Reading numbers

Numerals of ASCII digits become integers, in any base up to sixteen; a numeral with a fraction or an
exponent becomes the nearest binary64 number. `numeral` brings a text into this form: white space
around it is left out, and the decimal digits of every script are taken as ASCII digits.
-/

namespace TypedClient.Decimal

/-- ASCII digits. -/
def isAsciiDigit (c : Char) : Bool :=
  '0' ≤ c && c ≤ '9'

/-- White space around a numeral: that of ASCII without the separators U+001C to U+001F, and every
blank beyond ASCII. -/
def isSpace (c : Char) : Bool :=
  c = ' ' || ('\t' ≤ c && c ≤ '\r') || (0x7f < c.toNat && Text.isBlank c)

/-- A text without the white space at its ends, with ASCII digits. -/
def numeral (cs : List Char) : List Char :=
  ((cs.dropWhile isSpace).reverse.dropWhile isSpace).reverse.map Text.asciiDigit

/-- The value of a hexadecimal digit. -/
def digitValue? (c : Char) : Option Nat :=
  if isAsciiDigit c then some (c.toNat - '0'.toNat)
  else if 'a' ≤ c && c ≤ 'f' then some (c.toNat - 'a'.toNat + 10)
  else if 'A' ≤ c && c ≤ 'F' then some (c.toNat - 'A'.toNat + 10)
  else none

/-- The number that digits write in a base. -/
def ofDigits (base : Nat) (values : List Nat) : Nat :=
  values.foldl (fun n d => base * n + d) 0

/-- The value of a non-empty numeral in a base. -/
def natOf? (base : Nat) (cs : List Char) : Option Nat :=
  if cs.isEmpty then none
  else
    (cs.mapM fun c => (digitValue? c).filter (· < base)).map (ofDigits base)

/-- The number that decimal digits write; anything else counts as zero. -/
def natOf (cs : List Char) : Nat :=
  (natOf? 10 cs).getD 0

/-- Whether a decimal numeral has more digits than are read. -/
def isOversized (cs : List Char) : Bool :=
  Text.numeralLimit < cs.length

/-- The binary64 number of decimal digits before and after the point and an exponent. -/
def binary64 (negative : Bool) (whole fraction : List Char) (exponent : Int) : Binary64 :=
  let digits := (whole ++ fraction).dropWhile (· = '0')
  Binary64.ofDecimal negative (natOf digits) digits.length (exponent - Int.ofNat fraction.length)

/-- A sign, if there is one, and what follows it. The flag tells whether the sign is negative. -/
def sign : List Char → Bool × List Char
  | '-' :: rest => (true, rest)
  | '+' :: rest => (false, rest)
  | cs => (false, cs)

/-- The value of an exponent: an optional sign and digits. -/
def exponent? (cs : List Char) : Option Int :=
  let (negative, digits) := sign cs
  (natOf? 10 digits).map fun n => if negative then -Int.ofNat n else Int.ofNat n

/-- The text without the underscores that stand between two digits. -/
def joinDigits : List Char → List Char
  | a :: '_' :: b :: rest =>
    if isAsciiDigit a && isAsciiDigit b then a :: joinDigits (b :: rest)
    else a :: '_' :: joinDigits (b :: rest)
  | a :: rest => a :: joinDigits rest
  | [] => []

/-- A number with an optional sign, a point with a digit on one side at least, and an optional
exponent. -/
def float? (cs : List Char) : Option Binary64 :=
  let (negative, body) := sign cs
  let whole := body.takeWhile isAsciiDigit
  let rest := body.dropWhile isAsciiDigit
  let (fraction, rest) :=
    match rest with
    | '.' :: more => (more.takeWhile isAsciiDigit, more.dropWhile isAsciiDigit)
    | _ => ([], rest)
  if whole.isEmpty && fraction.isEmpty then none
  else
    match rest with
    | [] => some (binary64 negative whole fraction 0)
    | e :: power =>
      if e = 'e' || e = 'E' then (exponent? power).map (binary64 negative whole fraction ·)
      else none

end TypedClient.Decimal
