/-!
# Dates and times

Days of the Gregorian calendar in the years 1 to 9999, times of day to the microsecond, and offsets
from universal time. A moment is a day, a time of day, or both with an optional offset. `iso` is its
standard text, `plain` the same with a blank between day and time, and `inspect` the expression that
denotes it in messages. An offset of a day or more can be read and not be written.
-/

namespace TypedClient

/-- A day of the Gregorian calendar. -/
structure Date where
  year : Nat
  month : Nat
  day : Nat
  deriving DecidableEq, Repr

/-- A time of day. -/
structure Clock where
  hour : Nat
  minute : Nat
  second : Nat
  microsecond : Nat
  deriving DecidableEq, Repr

/-- A day, a time of day, or a day with a time and perhaps an offset in seconds. -/
inductive Moment where
  | date (d : Date)
  | clock (t : Clock)
  | dateTime (d : Date) (t : Clock) (offset : Option Int)
  deriving DecidableEq, Repr

/-- Decimal digits with zeros in front up to a width. -/
def padded (width n : Nat) : String :=
  let digits := Nat.toDigits 10 n
  String.ofList (List.replicate (width - digits.length) '0' ++ digits)

namespace Date

/-- Whether a year has a 29th of February. -/
def isLeap (year : Nat) : Bool :=
  (year % 4 == 0 && year % 100 != 0) || year % 400 == 0

/-- The number of days of a month; none for what is not a month. -/
def daysIn (year month : Nat) : Nat :=
  if month = 2 then (if isLeap year then 29 else 28)
  else if [4, 6, 9, 11].contains month then 30
  else if 1 ≤ month && month ≤ 12 then 31
  else 0

/-- The day of the given parts, if there is one. -/
def ofParts? (year month day : Nat) : Option Date :=
  if 1 ≤ year && year ≤ 9999 && 1 ≤ day && day ≤ daysIn year month then some ⟨year, month, day⟩
  else none

/-- The number of days from the first day of year 1. -/
def ordinal (d : Date) : Nat :=
  let y := d.year - 1
  365 * y + y / 4 - y / 100 + y / 400 +
    (List.range (d.month - 1)).foldl (fun n m => n + daysIn d.year (m + 1)) 0 + (d.day - 1)

def iso (d : Date) : String :=
  padded 4 d.year ++ "-" ++ padded 2 d.month ++ "-" ++ padded 2 d.day

end Date

namespace Clock

/-- The time of the given parts, if there is one. -/
def ofParts? (hour minute second microsecond : Nat) : Option Clock :=
  if hour < 24 && minute < 60 && second < 60 && microsecond < 1000000 then
    some ⟨hour, minute, second, microsecond⟩
  else none

def iso (t : Clock) : String :=
  padded 2 t.hour ++ ":" ++ padded 2 t.minute ++ ":" ++ padded 2 t.second ++
    (if t.microsecond = 0 then "" else "." ++ padded 6 t.microsecond)

/-- The number of microseconds from midnight. -/
def microseconds (t : Clock) : Nat :=
  ((t.hour * 60 + t.minute) * 60 + t.second) * 1000000 + t.microsecond

/-- The parts of the time, without seconds and microseconds that are zero. -/
def parts (t : Clock) : List Nat :=
  [t.hour, t.minute] ++
    (if t.microsecond = 0 then (if t.second = 0 then [] else [t.second])
     else [t.second, t.microsecond])

end Clock

namespace Moment

/-- Whether a moment can be written: its offset is less than a day. -/
def hasText : Moment → Bool
  | .dateTime _ _ (some offset) => offset.natAbs < 86400
  | _ => true

/-- An offset as sign, hours and minutes, and seconds if there are any. -/
def offsetIso (offset : Int) : String :=
  let n := offset.natAbs
  (if offset < 0 then "-" else "+") ++ padded 2 (n / 3600) ++ ":" ++ padded 2 (n / 60 % 60) ++
    (if n % 60 = 0 then "" else ":" ++ padded 2 (n % 60))

/-- An offset in messages. A negative one is a day less and the seconds that make up for it. -/
def offsetInspect (offset : Int) : String :=
  if offset = 0 then "datetime.timezone.utc"
  else if offset < 0 then
    "datetime.timezone(datetime.timedelta(days=-1, seconds=" ++ toString (86400 + offset) ++ "))"
  else "datetime.timezone(datetime.timedelta(seconds=" ++ toString offset ++ "))"

/-- The standard text, with a given mark between day and time. -/
def render (mark : String) : Moment → String
  | .date d => d.iso
  | .clock t => t.iso
  | .dateTime d t offset => d.iso ++ mark ++ t.iso ++ (offset.map offsetIso).getD ""

def iso : Moment → String := render "T"

def plain : Moment → String := render " "

/-- Numbers with commas between them. -/
def commaList (ns : List Nat) : String :=
  String.intercalate ", " (ns.map toString)

def inspect : Moment → String
  | .date d => "datetime.date(" ++ commaList [d.year, d.month, d.day] ++ ")"
  | .clock t => "datetime.time(" ++ commaList t.parts ++ ")"
  | .dateTime d t offset =>
    "datetime.datetime(" ++ commaList ([d.year, d.month, d.day] ++ t.parts) ++
      (offset.map fun o => ", tzinfo=" ++ offsetInspect o).getD "" ++ ")"

/-- The microseconds from the first day of year 1 in universal time. -/
def instant (d : Date) (t : Clock) (offset : Int) : Int :=
  (Int.ofNat d.ordinal * 86400 - offset) * 1000000 + t.microseconds

/-- Whether two moments are the same; with offsets, whether they are the same instant. -/
def same : Moment → Moment → Bool
  | .dateTime d t (some o), .dateTime d' t' (some o') => instant d t o = instant d' t' o'
  | a, b => a = b

end Moment

end TypedClient
