import TypedClient.Yaml.Cursor
import TypedClient.Value.Basic
import TypedClient.Decimal.Reading
import TypedClient.Text.Blank
import TypedClient.Text.Case
import TypedClient.Text.Split

/-!
# Tags of a YAML text

A tag says what a node denotes. A plain scalar without a tag gets one from its form: the words for
booleans, the forms of integers, floating-point numbers and times, and the empty scalar. The second
half of the module reads the scalars of each tag.
-/

namespace TypedClient.Yaml

/-- What a node denotes. -/
inductive Tag where
  | null | bool | int | float | time | text
  /-- The key under which the entries of other maps are taken over. -/
  | merge
  /-- The key of a default value. -/
  | default
  | sequence | mapping
  /-- A tag of the format whose values are not represented: bytes, sets and lists of pairs. -/
  | unsupported
  | unknown
  deriving DecidableEq, Repr

namespace Tag

/-- The beginning of the addresses of the tags of the format. -/
def standard : String := "tag:yaml.org,2002:"

/-- The tags of the format under the ends of their addresses. -/
def known : List (String × Tag) := [
  ("null", .null), ("bool", .bool), ("int", .int), ("float", .float), ("timestamp", .time),
  ("str", .text), ("merge", .merge), ("value", .default), ("seq", .sequence), ("map", .mapping),
  ("binary", .unsupported), ("set", .unsupported), ("omap", .unsupported),
  ("pairs", .unsupported)]

/-- The tag with an address. -/
def ofAddress (address : String) : Tag :=
  match Text.dropStart? standard.toList address.toList with
  | some rest => (known.lookup (String.ofList rest)).getD .unknown
  | none => .unknown

end Tag

namespace Form

def isSign (c : Char) : Bool := c = '+' || c = '-'

/-- The text without a sign at its beginning. -/
def unsigned : List Char → List Char
  | c :: rest => if isSign c then rest else c :: rest
  | [] => []

/-- A non-empty text of characters of a class. -/
def many (p : Char → Bool) (cs : List Char) : Bool :=
  !cs.isEmpty && cs.all p

/-- A decimal digit, or an underscore between digits. -/
def isLooseDigit (c : Char) : Bool := Decimal.isAsciiDigit c || c = '_'

/-- A digit with more digits and underscores after it. -/
def looseNumeral : List Char → Bool
  | c :: rest => Decimal.isAsciiDigit c && rest.all isLooseDigit
  | [] => false

/-- A number below sixty of one or two digits. -/
def sixtieth : List Char → Bool
  | [c] => Decimal.isAsciiDigit c
  | [c, d] => '0' ≤ c && c ≤ '5' && Decimal.isAsciiDigit d
  | _ => false

/-- A numeral that does not begin with zero. -/
def positiveNumeral (cs : List Char) : Bool :=
  looseNumeral cs && cs.head? != some '0'

/-- The words for the two booleans, each in three spellings. -/
def booleans : List String :=
  ["yes", "Yes", "YES", "no", "No", "NO", "true", "True", "TRUE", "false", "False", "FALSE", "on",
    "On", "ON", "off", "Off", "OFF"]

/-- The forms of an integer: binary, octal, decimal, hexadecimal and in parts of sixty. -/
def isInt (cs : List Char) : Bool :=
  let body := unsigned cs
  match body with
  | '0' :: 'b' :: digits => many (fun c => c = '0' || c = '1' || c = '_') digits
  | '0' :: 'x' :: digits => many (fun c => (Decimal.digitValue? c).isSome || c = '_') digits
  | ['0'] => true
  | '0' :: digits => many (fun c => ('0' ≤ c && c ≤ '7') || c = '_') digits
  | _ =>
    match Text.splitAt ':' body with
    | whole :: parts => positiveNumeral whole && parts.all sixtieth
    | [] => false

/-- An exponent with a sign, or nothing. -/
def exponentOrNone : List Char → Bool
  | [] => true
  | e :: s :: digits => (e = 'e' || e = 'E') && isSign s && many Decimal.isAsciiDigit digits
  | _ => false

/-- The forms of a floating-point number: with a point, in parts of sixty, infinite or no number. -/
def isFloat (cs : List Char) : Bool :=
  let body := unsigned cs
  let whole := body.takeWhile (· != '.')
  match body.dropWhile (· != '.') with
  | '.' :: rest =>
    let exponent := rest.dropWhile isLooseDigit
    if whole.isEmpty then
      ([".inf", ".Inf", ".INF"].map String.toList).contains body ||
        ([".nan", ".NaN", ".NAN"].map String.toList).contains cs ||
        (body = cs && looseNumeral (rest.takeWhile isLooseDigit) && exponentOrNone exponent)
    else
      match Text.splitAt ':' whole with
      | [_] => looseNumeral whole && exponentOrNone exponent
      | first :: parts => looseNumeral first && parts.all sixtieth && exponent.isEmpty
      | [] => false
  | _ => false

def nulls : List String := ["", "~", "null", "Null", "NULL"]

/-- The parts of a time, as they are written. -/
structure TimeParts where
  year : List Char
  month : List Char
  day : List Char
  clock : Option (List Char × List Char × List Char × List Char)
  offset : Option (Bool × List Char × List Char)

/-- Between `least` and `most` digits, and the rest. -/
def digits? (least most : Nat) (cs : List Char) : Option (List Char × List Char) :=
  let run := (cs.take most).takeWhile Decimal.isAsciiDigit
  if least ≤ run.length then some (run, cs.drop run.length) else none

/-- A given character, and the rest. -/
def char? (c : Char) : List Char → Option (List Char)
  | d :: rest => if c = d then some rest else none
  | [] => none

def isBlankOrTab (c : Char) : Bool := c = ' ' || c = '\t'

/-- An offset from universal time up to the end of the text: the sign is negative or not, then hours
and minutes. Universal time itself has none of them. -/
def offset? (cs : List Char) : Option (Bool × List Char × List Char) := do
  match cs with
  | ['Z'] => some (false, [], [])
  | s :: rest =>
    if isSign s then
      let (hours, rest) ← digits? 1 2 rest
      match rest with
      | [] => some (s = '-', hours, [])
      | _ =>
        let rest ← char? ':' rest
        let (minutes, rest) ← digits? 2 2 rest
        if rest.isEmpty then some (s = '-', hours, minutes) else none
    else none
  | [] => none

/-- A time of day and an offset up to the end of the text. -/
def clock? (date : TimeParts) (cs : List Char) : Option TimeParts := do
  let (hour, cs) ← digits? 1 2 cs
  let cs ← char? ':' cs
  let (minute, cs) ← digits? 2 2 cs
  let cs ← char? ':' cs
  let (second, cs) ← digits? 2 2 cs
  let (fraction, cs) :=
    match cs with
    | '.' :: rest => (rest.takeWhile Decimal.isAsciiDigit, rest.dropWhile Decimal.isAsciiDigit)
    | _ => ([], cs)
  let timed := { date with clock := some (hour, minute, second, fraction) }
  if cs.isEmpty then some timed
  else
    let offset ← offset? (cs.dropWhile isBlankOrTab)
    some { timed with offset := some offset }

/-- The parts of a time: a day, or a day and a time of day. -/
def timeParts? (cs : List Char) : Option TimeParts := do
  let (year, cs) ← digits? 4 4 cs
  let cs ← char? '-' cs
  let (month, cs) ← digits? 1 2 cs
  let cs ← char? '-' cs
  let (day, cs) ← digits? 1 2 cs
  let date : TimeParts := ⟨year, month, day, none, none⟩
  match cs with
  | [] => some date
  | c :: rest =>
    if c = 'T' || c = 't' then clock? date rest
    else if isBlankOrTab c then clock? date (rest.dropWhile isBlankOrTab)
    else none

/-- The form of a time. A day alone has two digits for the month and two for the day. -/
def isTime (cs : List Char) : Bool :=
  match timeParts? cs with
  | some t => t.clock.isSome || (t.month.length = 2 && t.day.length = 2)
  | none => false

end Form

/-- The text without a line feed at its end. -/
def Form.withoutBreak (cs : List Char) : List Char :=
  (Text.dropEnd? ['\n'] cs).getD cs

namespace Tag

/-- The tag of a scalar that is plain or counts as plain. The forms allow a line feed at the end,
but nothing else than a text begins with one. -/
def ofPlain (text : String) : Tag :=
  let cs := Form.withoutBreak text.toList
  let text := if text = "\n" then text else String.ofList cs
  if Form.booleans.contains text then .bool
  else if Form.isFloat cs then .float
  else if Form.isInt cs then .int
  else if text = "<<" then .merge
  else if Form.nulls.contains text then .null
  else if Form.isTime cs then .time
  else if text = "=" then .default
  else .text

end Tag

namespace Reading

/-- The integer of a text in a base: white space around it, a sign and the mark of the base are
allowed. -/
def intOf? (base : Nat) (cs : List Char) : Option Int :=
  let (negative, body) := Decimal.sign (Decimal.numeral cs)
  let body :=
    match body with
    | '0' :: m :: rest =>
      if (base = 2 && (m = 'b' || m = 'B')) || (base = 8 && (m = 'o' || m = 'O')) ||
          (base = 16 && (m = 'x' || m = 'X')) then rest
      else body
    | _ => body
  if base = 10 && Decimal.isOversized body then none
  else (Decimal.natOf? base body).map fun n => if negative then -Int.ofNat n else Int.ofNat n

/-- The number that parts of sixty write, the greatest first. -/
def sexagesimal (parts : List Int) : Int :=
  parts.foldl (fun n d => 60 * n + d) 0

/-- The integer that a scalar denotes. -/
def int (text : String) : Except Fault Int :=
  let cs := text.toList.filter (· != '_')
  let negative := cs.head? = some '-'
  let signed (n : Int) : Int := if negative then -n else n
  let read (n : Option Int) : Except Fault Int :=
    match n with
    | some n => .ok (signed n)
    | none => .error .impossible
  if cs.isEmpty then .error .emptyNumber
  else
    let body := Form.unsigned cs
    match body with
    | [] => .error .emptyNumber
    | ['0'] => .ok 0
    | '0' :: 'b' :: digits => read (intOf? 2 digits)
    | '0' :: 'x' :: digits => read (intOf? 16 digits)
    | '0' :: _ => read (intOf? 8 body)
    | _ =>
      if body.contains ':' then read (((Text.splitAt ':' body).mapM (intOf? 10)).map sexagesimal)
      else read (intOf? 10 body)

/-- The floating-point number of a text; infinities and no number have words. -/
def floatOf? (cs : List Char) : Option Binary64 :=
  let cs := Decimal.numeral cs
  let (negative, body) := Decimal.sign cs
  let word := String.ofList body
  if word = "inf" || word = "infinity" then some (.infinity negative)
  else if word = "nan" then some .nan
  else Decimal.float? cs

/-- The sum of parts of sixty, the least first. The power of sixty, its product with a part, and the
sum are rounded each. -/
def sexagesimalFloat : Nat → List Binary64 → Binary64 → Except Fault Binary64
  | _, [], sum => .ok sum
  | power, part :: rest, sum =>
    match Binary64.ofInt? power with
    | some x => sexagesimalFloat (60 * power) rest (sum.add (part.mul x))
    | none => .error .tooLarge

/-- The characters of a scalar that count for a floating-point number. -/
def floatChars (text : String) : List Char :=
  (Text.lower text).toList.filter (· != '_')

/-- Whether a scalar is the word for what is no number. -/
def isNoNumberWord (text : String) : Bool :=
  Form.unsigned (floatChars text) = ".nan".toList

/-- The floating-point number that a scalar denotes. -/
def float (text : String) : Except Fault Binary64 :=
  let cs := floatChars text
  let signed (x : Binary64) : Binary64 := if cs.head? = some '-' then x.neg else x
  if cs.isEmpty then .error .emptyNumber
  else
    let body := Form.unsigned cs
    if body = ".inf".toList then .ok (signed (.infinity false))
    else if isNoNumberWord text then .ok .nan
    else if body.contains ':' then
      match (Text.splitAt ':' body).mapM floatOf? with
      | some parts => (sexagesimalFloat 1 parts.reverse (Binary64.zero false)).map signed
      | none => .error .impossible
    else
      match floatOf? body with
      | some x => .ok (signed x)
      | none => .error .impossible

/-- The boolean that a word denotes. -/
def bool (text : String) : Except Fault Bool :=
  let word := Text.lower text
  if ["yes", "true", "on"].contains word then .ok true
  else if ["no", "false", "off"].contains word then .ok false
  else .error .notBoolean

/-- The microseconds of a fraction of a second. Further digits are cut off. -/
def microseconds (fraction : List Char) : Nat :=
  let digits := fraction.take 6
  Decimal.natOf (digits ++ List.replicate (6 - digits.length) '0')

/-- The offset in seconds of a sign, hours and minutes; less than a day. -/
def offset? (o : Bool × List Char × List Char) : Option Int :=
  let n := Decimal.natOf o.2.1 * 3600 + Decimal.natOf o.2.2 * 60
  if n < 86400 then some (if o.1 then -Int.ofNat n else Int.ofNat n) else none

/-- The moment of the parts of a time, if there is one. -/
def moment? (t : Form.TimeParts) : Option Moment := do
  let date ← Date.ofParts? (Decimal.natOf t.year) (Decimal.natOf t.month) (Decimal.natOf t.day)
  match t.clock with
  | none => some (.date date)
  | some (hour, minute, second, fraction) =>
    let clock ← Clock.ofParts? (Decimal.natOf hour) (Decimal.natOf minute) (Decimal.natOf second)
      (microseconds fraction)
    match t.offset with
    | none => some (.dateTime date clock none)
    | some o => (offset? o).map fun seconds => .dateTime date clock (some seconds)

/-- The moment that a scalar denotes. -/
def moment (text : String) : Except Fault Moment :=
  match Form.timeParts? (Form.withoutBreak text.toList) with
  | none => .error .notTime
  | some t =>
    match moment? t with
    | some m => .ok m
    | none => .error .impossible

/-- The value that a scalar of a tag denotes. -/
def scalar (tag : Tag) (text : String) : Except Fault Value :=
  match tag with
  | .null => .ok .null
  | .bool => (bool text).map .bool
  | .int => (int text).map .int
  | .float => (float text).map .float
  | .time => (moment text).map .moment
  | .text => .ok (.text text)
  | _ => .error .malformed

end Reading

end TypedClient.Yaml
