import TypedClient.Value.Basic
import TypedClient.Decimal.Reading
import TypedClient.Text.Split
import TypedClient.Text.Surrogate

/-!
# JSON texts

`Json.read` accepts a JSON text and the three words `NaN`, `Infinity` and `-Infinity`. A number with
a fraction or an exponent is a binary64 number, any other an integer. A repeated key keeps its place
and takes the last value. An escape may give half of a pair of UTF-16 units on its own. Control
characters inside strings and a byte order mark are refused.

The readers take the rest of the text and give back what is left of it. Their first argument bounds
the depth of the recursion; the length of the text is always enough.
-/

namespace TypedClient.Json

/-- Why a text is refused. -/
inductive Fault where
  | malformed
  /-- An integer has too many digits. -/
  | oversized
  /-- An escaped character stands for a lone surrogate here. -/
  | unsupported
  deriving DecidableEq, Repr

/-- White space between tokens. -/
def isSpace (c : Char) : Bool :=
  c = ' ' || c = '\t' || c = '\n' || c = '\r'

def skipSpace (cs : List Char) : List Char :=
  cs.dropWhile isSpace

/-! ## Strings -/

/-- The character that a one-letter escape denotes. -/
def shortEscape? : Char → Option Char
  | '"' => some '"'
  | '\\' => some '\\'
  | '/' => some '/'
  | 'b' => some '\x08'
  | 'f' => some '\x0c'
  | 'n' => some '\n'
  | 'r' => some '\r'
  | 't' => some '\t'
  | _ => none

/-- Four hexadecimal digits as a UTF-16 unit. -/
def unit? (a b c d : Char) : Option Nat :=
  Decimal.natOf? 16 [a, b, c, d]

/-- The character of a high and a low unit. -/
def pairOf? (high low : Nat) : Option Char :=
  if 0xd800 ≤ high && high < 0xdc00 && 0xdc00 ≤ low && low < 0xe000 then
    some (Char.ofNat (0x10000 + (high - 0xd800) * 0x400 + (low - 0xdc00)))
  else none

/-- The characters of a string after its opening quote. -/
def stringBody : List Char → Except Fault (List Char × List Char)
  | [] => .error .malformed
  | '"' :: rest => .ok ([], rest)
  | '\\' :: 'u' :: a :: b :: c :: d :: '\\' :: 'u' :: a' :: b' :: c' :: d' :: rest =>
    match unit? a b c d with
    | none => .error .malformed
    | some high =>
      match (unit? a' b' c' d').bind (pairOf? high) with
      | some ch =>
        if Text.isStandIn ch then .error .unsupported
        else (stringBody rest).map fun r => (ch :: r.1, r.2)
      | none =>
        (stringBody ('\\' :: 'u' :: a' :: b' :: c' :: d' :: rest)).map fun r =>
          (Text.ofCodePoint high :: r.1, r.2)
  | '\\' :: 'u' :: a :: b :: c :: d :: rest =>
    match unit? a b c d with
    | none => .error .malformed
    | some unit => (stringBody rest).map fun r => (Text.ofCodePoint unit :: r.1, r.2)
  | '\\' :: e :: rest =>
    match shortEscape? e with
    | some c => (stringBody rest).map fun r => (c :: r.1, r.2)
    | none => .error .malformed
  | c :: rest =>
    if c = '\\' || c.toNat < 0x20 then .error .malformed
    else (stringBody rest).map fun r => (c :: r.1, r.2)

/-- A string. -/
def string : List Char → Except Fault (String × List Char)
  | '"' :: rest => (stringBody rest).map fun r => (String.ofList r.1, r.2)
  | _ => .error .malformed

/-! ## Numbers -/

/-- The digits of the whole part: a single zero, or digits that do not begin with zero. -/
def wholePart (cs : List Char) : Option (List Char × List Char) :=
  match cs with
  | '0' :: rest => some (['0'], rest)
  | c :: _ =>
    if Decimal.isAsciiDigit c then
      some (cs.takeWhile Decimal.isAsciiDigit, cs.dropWhile Decimal.isAsciiDigit)
    else none
  | [] => none

/-- A point and digits after it, if there are any. -/
def fractionPart (cs : List Char) : List Char × List Char :=
  match cs with
  | '.' :: rest =>
    let digits := rest.takeWhile Decimal.isAsciiDigit
    if digits.isEmpty then ([], cs) else (digits, rest.dropWhile Decimal.isAsciiDigit)
  | _ => ([], cs)

/-- The value of an exponent, if there is one. -/
def exponentPart (cs : List Char) : Option Int × List Char :=
  match cs with
  | e :: rest =>
    if e = 'e' || e = 'E' then
      let (negative, digits) := Decimal.sign rest
      match Decimal.natOf? 10 (digits.takeWhile Decimal.isAsciiDigit) with
      | some n =>
        (some (if negative then -Int.ofNat n else Int.ofNat n),
          digits.dropWhile Decimal.isAsciiDigit)
      | none => (none, cs)
    else (none, cs)
  | [] => (none, cs)

/-- A number after its sign. -/
def number (negative : Bool) (cs : List Char) : Except Fault (Value × List Char) :=
  match wholePart cs with
  | none => .error .malformed
  | some (whole, rest) =>
    let (fraction, rest) := fractionPart rest
    let (exponent, rest) := exponentPart rest
    if fraction.isEmpty && exponent.isNone then
      if Decimal.isOversized whole then .error .oversized
      else
        let n := Int.ofNat (Decimal.natOf whole)
        .ok (.int (if negative then -n else n), rest)
    else .ok (.float (Decimal.binary64 negative whole fraction (exponent.getD 0)), rest)

/-! ## Values -/

/-- The words and what they denote. -/
def words : List (String × Value) := [
  ("null", .null), ("true", .bool true), ("false", .bool false), ("NaN", .float .nan),
  ("Infinity", .float (.infinity false)), ("-Infinity", .float (.infinity true))]

/-- A word at the beginning of a text. -/
def word? (cs : List Char) : Option (Value × List Char) :=
  words.findSome? fun w => (Text.dropStart? w.1.toList cs).map (w.2, ·)

/-- A word, a string or a number. -/
def scalar (cs : List Char) : Except Fault (Value × List Char) :=
  match word? cs with
  | some r => .ok r
  | none =>
    match cs with
    | '"' :: _ => (string cs).map fun r => (.text r.1, r.2)
    | '-' :: rest => number true rest
    | _ => number false cs

mutual

/-- A value at the beginning of a text. -/
def value : Nat → List Char → Except Fault (Value × List Char)
  | 0, _ => .error .malformed
  | depth + 1, cs =>
    match cs with
    | '[' :: rest =>
      match skipSpace rest with
      | ']' :: rest => .ok (.list [], rest)
      | rest => (items depth rest).map fun r => (.list r.1, r.2)
    | '\x7b' :: rest =>
      match skipSpace rest with
      | '\x7d' :: rest => .ok (.map [], rest)
      | rest => (entries depth rest).map fun r => (.map (Value.ofPairs r.1), r.2)
    | _ => scalar cs

/-- The items of a list up to its closing bracket. -/
def items : Nat → List Char → Except Fault (List Value × List Char)
  | 0, _ => .error .malformed
  | depth + 1, cs => do
    let (v, rest) ← value depth cs
    match skipSpace rest with
    | ',' :: rest =>
      let (vs, rest) ← items depth (skipSpace rest)
      return (v :: vs, rest)
    | ']' :: rest => return ([v], rest)
    | _ => throw .malformed

/-- The entries of a map up to its closing brace. -/
def entries : Nat → List Char → Except Fault (List (Value × Value) × List Char)
  | 0, _ => .error .malformed
  | depth + 1, cs => do
    let (key, rest) ← string cs
    match skipSpace rest with
    | ':' :: rest =>
      let (v, rest) ← value depth (skipSpace rest)
      match skipSpace rest with
      | ',' :: rest =>
        let (es, rest) ← entries depth (skipSpace rest)
        return ((.text key, v) :: es, rest)
      | '\x7d' :: rest => return ([(.text key, v)], rest)
      | _ => throw .malformed
    | _ => throw .malformed

end

/-- The value that a JSON text denotes. -/
def read (text : String) : Except Fault Value := do
  let cs := text.toList
  let (v, rest) ← value (cs.length + 1) (skipSpace cs)
  if (skipSpace rest).isEmpty then return v else throw .malformed

end TypedClient.Json
