import TypedClient.Decimal.Binary64

/-!
# Shortest decimal text

The digits of a finite number are the fewest that read back as the number, and of these the nearest
to it. They are found on decimal grids of one, two, … seventeen digits: the first grid with a point
in the interval of the reals that round to the number has one beside the number itself.
`Binary64.text` then writes them positionally where the decimal exponent is between -4 and 15.
-/

namespace TypedClient.Binary64

/-- The decimal exponent of a positive quotient: it lies between `10 ^ k` and `10 ^ (k + 1)`. -/
def decimalExponent (num den : Nat) : Int :=
  if den ≤ num then
    Int.ofNat (Nat.toDigits 10 (num / den)).length - 1
  else
    let places := (Nat.toDigits 10 (den / num)).length
    if den ≤ num * Nat.pow 10 (places - 1) then -(Int.ofNat places - 1) else -Int.ofNat places

/-- Whether the decimal `digits * 10 ^ scale` rounds to the positive number `m * 2 ^ e`. -/
def readsBack (m : Nat) (e : Int) (digits : Nat) (scale : Int) : Bool :=
  ofDecimal false digits (Nat.toDigits 10 digits).length scale = .finite false m e

/-- The point of a grid that is used: of the two neighbours that read back the nearer, of two
equally near the even one. -/
def gridPoint? (m : Nat) (e : Int) (scale : Int) : Option Nat :=
  let r := ratio m e
  let (num, den) :=
    if 0 ≤ scale then (r.1, r.2 * Nat.pow 10 scale.toNat)
    else (r.1 * Nat.pow 10 (-scale).toNat, r.2)
  let below := num / den
  let nearest := roundDiv num den
  let other := if nearest = below then below + 1 else below
  if readsBack m e nearest scale then some nearest
  else if readsBack m e other scale then some other
  else none

/-- The digits and the scale of the shortest decimal for the positive number `m * 2 ^ e`. -/
def shortest (m : Nat) (e : Int) : Nat × Int :=
  let r := ratio m e
  let k := decimalExponent r.1 r.2
  ((List.range 17).findSome? fun places =>
    (gridPoint? m e (k - Int.ofNat places)).map (·, k - Int.ofNat places)).getD (0, 0)

/-- The digits of a decimal without zeros at the end, and the exponent of the first digit. -/
def leadingDigits (digits : Nat) (scale : Int) : List Char × Int :=
  let ds := Nat.toDigits 10 digits
  ((ds.reverse.dropWhile (· = '0')).reverse, Int.ofNat ds.length + scale - 1)

/-- Decimal digits with the first one at `10 ^ exponent`, written with a point and no exponent. -/
def positional (ds : List Char) (exponent : Int) : List Char :=
  if exponent < 0 then
    '0' :: '.' :: (List.replicate (-exponent - 1).toNat '0' ++ ds)
  else
    let whole := exponent.toNat + 1
    let fraction := ds.drop whole
    ds.take whole ++ List.replicate (whole - ds.length) '0' ++
      '.' :: (if fraction.isEmpty then ['0'] else fraction)

/-- Decimal digits with one digit before the point and an exponent of at least two digits. -/
def scientific (ds : List Char) (exponent : Int) : List Char :=
  let fraction := ds.drop 1
  let power := Nat.toDigits 10 exponent.natAbs
  ds.take 1 ++ (if fraction.isEmpty then [] else '.' :: fraction) ++
    'e' :: (if exponent < 0 then '-' else '+') :: (List.replicate (2 - power.length) '0' ++ power)

/-- The text of the magnitude of a finite number. -/
def magnitudeText (m : Nat) (e : Int) : List Char :=
  if m = 0 then ['0', '.', '0']
  else
    let (digits, scale) := shortest m e
    let (ds, exponent) := leadingDigits digits scale
    if -4 ≤ exponent && exponent < 16 then positional ds exponent else scientific ds exponent

/-- The shortest text that reads back as the number. -/
def text : Binary64 → String
  | .nan => "nan"
  | .infinity negative => if negative then "-inf" else "inf"
  | .finite negative m e => String.ofList ((if negative then ['-'] else []) ++ magnitudeText m e)

end TypedClient.Binary64
