import TypedClient.Toml.Lines
import TypedClient.Value.Basic
import TypedClient.Decimal.Reading
import TypedClient.Text.Split
import TypedClient.Text.Surrogate

/-!
# Scalars of a TOML text

Strings, numbers, times and days as they are written on one logical line. The text of a string is
checked for what follows its closing quote, then its escapes of code points are resolved, then the
others; its quotes are cut off last.
-/

namespace TypedClient.Toml

open Text

/-! ## Strings -/

/-- The letters of the escapes of one character, and what they stand for. -/
def escapes : List (Char × Char) := [
  ('0', '\x00'), ('b', '\x08'), ('f', '\x0c'), ('n', '\n'), ('r', '\r'), ('t', '\t'), ('"', '"')]

/-- Whether a text ends behind an odd number of backslashes. -/
def endsEscaping (cs : List Char) : Bool :=
  (cs.reverse.takeWhile (· = '\\')).length % 2 = 1

/-- Whether nothing follows the closing quote. The pieces are those between quotes; `quotes` counts
the empty pieces of a long string. -/
def isClosedBy (isLong : Bool) : Nat → Bool → List (List Char) → Bool
  | _, _, [] => true
  | quotes, closed, piece :: rest =>
    if piece.isEmpty then
      if isLong then isClosedBy isLong (quotes + 1) closed rest
      else isClosedBy isLong quotes true rest
    else if endsEscaping piece then isClosedBy isLong quotes closed rest
    else if closed then false
    else if !isLong || 1 < quotes then isClosedBy isLong quotes true rest
    else isClosedBy isLong 0 closed rest

/-- Whether nothing follows the closing quote of a string. -/
def isOneString (quote : Char) (cs : List Char) : Bool :=
  match splitAt quote (cs.drop 1) with
  | [] :: [] :: rest => isClosedBy true 0 false rest
  | pieces => isClosedBy false 0 false pieces

/-- Whether the letter after a backslash is allowed. The pieces are those after backslashes, and an
empty one is a backslash that is escaped itself. -/
def hasKnownEscapes : Bool → List (List Char) → Bool
  | _, [] => true
  | escaped, [] :: rest => hasKnownEscapes (!escaped) rest
  | escaped, (c :: _) :: rest =>
    ((escapes.lookup c).isSome || c = 'u' || c = 'U' || escaped) && hasKnownEscapes false rest

/-- The character whose code point is written by hexadecimal digits. -/
def codePoint (digits : List Char) : Except Fault Char :=
  match digits with
  | [] => .error .endOfText
  | first :: rest =>
    match Decimal.natOf? 16 digits with
    | none => .error .malformed
    | some n =>
      let surrogate := first = 'd' && rest.head?.any fun c => !('0' ≤ c && c ≤ '7')
      if first = 'd' && rest.isEmpty then .error .endOfText
      else if surrogate then .error .malformed
      else if isSurrogate n then .error .unsupported
      else if n < 0x110000 then .ok (Char.ofNat n)
      else if n < 0x80000000 then .error .malformed
      else .error .tooLarge

/-- The text of the pieces between escapes of code points with these resolved. A backslash in front
of an escape leaves it as it is. -/
def joinCodePoints (letter : Char) (length : Nat) : Bool → List (List Char) →
    Except Fault (List Char)
  | _, [] => .ok []
  | true, piece :: rest =>
    (joinCodePoints letter length (endsEscaping piece) rest).map fun more =>
      '\\' :: letter :: (piece ++ more)
  | false, piece :: rest => do
    let digits := (piece.take length).map Char.toLower
    let c ← codePoint digits
    let more ← joinCodePoints letter length false rest
    return c :: (piece.drop length ++ more)

/-- The text with the escapes of code points with a letter resolved. -/
def resolveCodePoints (letter : Char) (length : Nat) (cs : List Char) : Except Fault (List Char) :=
  match splitAtPair '\\' letter cs with
  | [] => .ok []
  | first :: rest => (joinCodePoints letter length (endsEscaping first) rest).map (first ++ ·)

/-- The text with the other escapes resolved. -/
def unescape : List Char → Except Fault (List Char)
  | [] => .ok []
  | ['\\'] => .ok ['\\']
  | '\\' :: c :: rest =>
    match escapes.lookup c with
    | some e => (unescape rest).map (e :: ·)
    | none =>
      if c = '\\' then (unescape rest).map ('\\' :: ·)
      else if c = 'u' || c = 'U' then (unescape rest).map fun more => '\\' :: c :: more
      else .error .malformed
  | c :: rest => (unescape rest).map (c :: ·)

/-- The text without its first `n` and last `n` characters. -/
def trimBy (n : Nat) (cs : List Char) : List Char :=
  (cs.drop n).take (cs.length - 2 * n)

/-- A text without its quotes, one or three at each end. -/
def unquote (quote : Char) (cs : List Char) : List Char :=
  let isLong :=
    match cs with
    | _ :: b :: rest => b = quote && (rest.isEmpty || rest.head? = some b)
    | _ => false
  trimBy 1 (if isLong then trimBy 2 cs else cs)

/-- The string that a quoted text denotes. -/
def string (quote : Char) (cs : List Char) : Except Fault (List Char) := do
  if !isOneString quote cs then throw .malformed
  if quote = '"' then
    if !hasKnownEscapes false ((splitAt '\\' cs).drop 1) then throw .malformed
    let cs ← resolveCodePoints 'u' 4 cs
    let cs ← resolveCodePoints 'U' 8 cs
    let cs ← unescape cs
    return unquote quote cs
  else return unquote quote cs

/-! ## Days and times -/

/-- An integer in decimal digits; white space around it, a sign, and underscores between digits are
allowed. -/
def int? (cs : List Char) : Option Int :=
  let (negative, body) := Decimal.sign (Decimal.numeral cs)
  let digits := Decimal.joinDigits body
  if Decimal.isOversized digits then none
  else (Decimal.natOf? 10 digits).map fun n => if negative then -Int.ofNat n else Int.ofNat n

/-- The characters from one position up to another. -/
def slice (i j : Nat) (cs : List Char) : List Char :=
  (cs.drop i).take (j - i)

/-- The natural number at a place of a text. -/
def natAt? (i j : Nat) (cs : List Char) : Option Nat :=
  (int? (slice i j cs)).bind fun n => if 0 ≤ n then some n.toNat else none

/-- The seconds of an offset: a sign, hours and minutes, or a letter for universal time. -/
def offset? (cs : List Char) : Option Int :=
  let cs := if cs = ['Z'] then "+00:00".toList else cs
  match int? (slice 1 3 cs), int? (slice 4 6 cs) with
  | some hours, some minutes =>
    let seconds := hours * 3600 + minutes * 60
    some (if cs.head? = some '-' then -seconds else seconds)
  | _, _ => none

/-- The digits of a fraction of a second and the text of the offset after them. -/
def fractionAndOffset (cs : List Char) : List Char × Option (List Char) :=
  if cs.getLast? = some 'Z' || cs.getLast? = some 'z' then (cs.dropLast, some ['Z'])
  else if cs.contains '+' then (cs.takeWhile (· != '+'), some (cs.dropWhile (· != '+')))
  else if cs.contains '-' then (cs.takeWhile (· != '-'), some (cs.dropWhile (· != '-')))
  else (cs, none)

/-- The microseconds that the digits of a fraction write. More than six digits are scaled down in
floating point, and digits without a floating-point number are refused. -/
def microseconds? (digits : List Char) : Except Fault (Option Int) :=
  match int? digits with
  | none => .ok none
  | some n =>
    if digits.length ≤ 6 then .ok (some (n * Nat.pow 10 (6 - digits.length)))
    else
      match Binary64.ofInt? n with
      | some x => .ok (some (x.mul (Binary64.ofDecimal false 1 1 (6 - digits.length))).truncate)
      | none => .error .tooLarge

/-- The microseconds and the offset after the seconds of a time. If one of them cannot be read, both
are left out. -/
def afterSeconds (cs : List Char) : Except Fault (Int × Option Int) :=
  match cs with
  | [] => .ok (0, none)
  | '.' :: rest => do
    let (digits, zone) := fractionAndOffset rest
    match zone, zone.bind offset? with
    | some _, none => return (0, none)
    | _, offset =>
      match ← microseconds? digits with
      | some n => return (n, offset)
      | none => return (0, none)
  | _ => .ok (0, offset? cs)

/-- The day that the first ten characters of a text write. -/
def date? (cs : List Char) : Option Date := do
  Date.ofParts? (← natAt? 0 4 cs) (← natAt? 5 7 cs) (← natAt? 8 10 cs)

/-- The time of day that the characters after those of the day write. -/
def clock? (cs : List Char) (microsecond : Int) : Option Clock := do
  if microsecond < 0 then none
  else Clock.ofParts? (← natAt? 11 13 cs) (← natAt? 14 16 cs) (← natAt? 17 19 cs) microsecond.toNat

/-- The day, or the day and time, that a text denotes. -/
def moment? (cs : List Char) : Except Fault (Option Moment) := do
  let (microsecond, offset) ← afterSeconds (cs.drop 19)
  if !(cs.drop 1).contains '-' then return none
  else if cs.length = 10 then return (date? cs).map .date
  else
    return (date? cs).bind fun date => (clock? cs microsecond).map fun clock =>
      .dateTime date clock offset

/-- The parts of a time of day at the beginning of a text: hours, minutes, seconds and the digits of
a fraction, if three to six follow. -/
def clockParts? (cs : List Char) : Option (Nat × Nat × Nat × Nat) :=
  match cs with
  | a :: b :: ':' :: c :: d :: ':' :: e :: f :: rest =>
    if [a, b, c, d, e, f].all Decimal.isAsciiDigit then
      let fraction :=
        match rest with
        | '.' :: more => (more.take 6).takeWhile Decimal.isAsciiDigit
        | _ => []
      let part (x y : Char) := Decimal.natOf [x, y]
      some (part a b, part c d, part e f, if 3 ≤ fraction.length then Decimal.natOf fraction else 0)
    else none
  | _ => none

/-! ## Numbers -/

/-- An integer in decimal digits without zeros in front, or with the mark of another base. -/
def markedInt? (cs : List Char) : Option Int :=
  let (negative, body) := Decimal.sign (Decimal.numeral cs)
  let digits :=
    match body with
    | '0' :: 'x' :: rest => Decimal.natOf? 16 rest
    | '0' :: 'X' :: rest => Decimal.natOf? 16 rest
    | '0' :: 'o' :: rest => Decimal.natOf? 8 rest
    | '0' :: 'O' :: rest => Decimal.natOf? 8 rest
    | '0' :: 'b' :: rest => Decimal.natOf? 2 rest
    | '0' :: 'B' :: rest => Decimal.natOf? 2 rest
    | '0' :: rest => if rest.all (· = '0') then some 0 else none
    | _ => if Decimal.isOversized body then none else Decimal.natOf? 10 body
  digits.map fun n => if negative then -Int.ofNat n else Int.ofNat n

/-- The floating-point number of a text; infinities and no number have words. -/
def float? (cs : List Char) : Option Binary64 :=
  let cs := Decimal.joinDigits (Decimal.numeral cs)
  let (negative, body) := Decimal.sign cs
  let word := String.ofList (body.map Char.toLower)
  if word = "inf" || word = "infinity" then some (.infinity negative)
  else if word = "nan" then some .nan
  else Decimal.float? cs

/-- The difference of zero and a number: zero itself does not become negative. -/
def negated (x : Binary64) : Binary64 :=
  if x.isZero then Binary64.zero false else x.neg

/-- Whether two characters stand next to each other in a text. -/
def hasPair (a b : Char) (cs : List Char) : Bool :=
  1 < (splitAtPair a b cs).length

/-- Whether underscores and leading zeros stand where a number may have them. Underscores stand
between other characters than points and one at a time. A number begins with a zero only if a point
or the mark of a base follows; after a sign only a point may. -/
def isTidy (cs : List Char) : Bool :=
  let cs := trim cs
  match cs with
  | [] => false
  | [c] => c != '_'
  | a :: b :: rest =>
    let zeroAllowed :=
      if a = '0' then ['.', 'o', 'b', 'x'].contains b
      else if (a = '+' || a = '-') && b = '0' then rest.isEmpty || rest.head? = some '.'
      else true
    a != '_' && cs.getLast? != some '_' && zeroAllowed &&
      !(hasPair '_' '.' cs || hasPair '.' '_' cs || hasPair '_' '_' cs)

/-- A number. One with a point or an exponent is a floating-point number and has a digit on both
sides of the point. -/
def number (cs : List Char) : Except Fault Value :=
  let (negative, rest) := Decimal.sign cs
  let body := rest.filter (· != '_')
  let hasPoint := body.contains '.'
  let hasExponent := !body.contains 'x' && (body.contains 'e' || body.contains 'E')
  let word := body.map Char.toLower
  if hasPoint || hasExponent || word = "inf".toList || word = "nan".toList then
    let pointless := hasPoint && (body.dropWhile (· != '.')).length = 1
    let leading := !(body.head?.any Decimal.isAsciiDigit)
    if (hasPoint || hasExponent) && (pointless || leading) then .error .malformed
    else
      match float? body with
      | some x => .ok (.float (if negative then negated x else x))
      | none => .error .malformed
  else
    match markedInt? body with
    | some n => .ok (.int (if negative then -n else n))
    | none => .error .malformed

end TypedClient.Toml
