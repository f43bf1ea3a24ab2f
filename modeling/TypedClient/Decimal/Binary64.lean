/-!
# Binary floating-point numbers

A finite number is a sign, a significand below 2^53 and a power of two, so every operation is exact
arithmetic on natural numbers followed by one rounding. `ofRatio` rounds to the nearest number and a
tie to the even significand; what is too large becomes an infinity.
-/

namespace TypedClient

/-- A number of the binary64 format. -/
inductive Binary64 where
  | nan
  | infinity (negative : Bool)
  | finite (negative : Bool) (significand : Nat) (exponent : Int)
  deriving DecidableEq, Repr

namespace Binary64

/-- The least exponent of a finite number. -/
def minExponent : Int := -1074

/-- The greatest exponent of a finite number. -/
def maxExponent : Int := 971

/-- Zero of either sign. -/
def zero (negative : Bool) : Binary64 := .finite negative 0 minExponent

/-- The quotient to the nearest natural number, a tie to the even one. -/
def roundDiv (num den : Nat) : Nat :=
  let q := num / den
  let twice := 2 * (num % den)
  if twice < den then q
  else if den < twice then q + 1
  else q + q % 2

/-- The quotient `num / den` in units of `2 ^ exponent`, as a numerator and a denominator. -/
def inUnits (num den : Nat) (exponent : Int) : Nat × Nat :=
  if 0 ≤ exponent then (num, den * Nat.pow 2 exponent.toNat)
  else (num * Nat.pow 2 (-exponent).toNat, den)

/-- The exponent that gives the quotient a significand of 53 bits, if it is not too small. -/
def exponentOf (num den : Nat) : Int :=
  let guess : Int := Int.ofNat num.log2 - Int.ofNat den.log2 - 52
  let scaled := inUnits num den guess
  max minExponent (if scaled.1 < scaled.2 * Nat.pow 2 52 then guess - 1 else guess)

/-- The number nearest to `num / den`. -/
def ofRatio (negative : Bool) (num den : Nat) : Binary64 :=
  if num = 0 || den = 0 then zero negative
  else
    let e := exponentOf num den
    let scaled := inUnits num den e
    let m := roundDiv scaled.1 scaled.2
    let (m, e) := if m = Nat.pow 2 53 then (Nat.pow 2 52, e + 1) else (m, e)
    if maxExponent < e then .infinity negative else .finite negative m e

/-- The number nearest to `digits * 10 ^ scale`, where `digits` has `count` decimal digits. Far
outside the range of the format the powers of ten are not computed. -/
def ofDecimal (negative : Bool) (digits count : Nat) (scale : Int) : Binary64 :=
  if digits = 0 then zero negative
  else if 400 < Int.ofNat count + scale then .infinity negative
  else if Int.ofNat count + scale < -400 then zero negative
  else if 0 ≤ scale then ofRatio negative (digits * Nat.pow 10 scale.toNat) 1
  else ofRatio negative digits (Nat.pow 10 (-scale).toNat)

/-- The magnitude of a finite number as a numerator and a denominator. -/
def ratio (significand : Nat) (exponent : Int) : Nat × Nat :=
  if 0 ≤ exponent then (significand * Nat.pow 2 exponent.toNat, 1)
  else (significand, Nat.pow 2 (-exponent).toNat)

/-- Whether the number is a zero. -/
def isZero : Binary64 → Bool
  | .finite _ m _ => m = 0
  | _ => false

/-- The same number with the other sign. -/
def neg : Binary64 → Binary64
  | .nan => .nan
  | .infinity s => .infinity !s
  | .finite s m e => .finite (!s) m e

/-- The number nearest to a signed quotient. -/
def ofSignedRatio (num : Int) (den : Nat) : Binary64 :=
  ofRatio (num < 0) num.natAbs den

/-- The value of a finite number as a signed numerator and a denominator. -/
def signedRatio (negative : Bool) (significand : Nat) (exponent : Int) : Int × Nat :=
  let r := ratio significand exponent
  (if negative then -Int.ofNat r.1 else Int.ofNat r.1, r.2)

/-- The number nearest to an integer, unless it is too large. -/
def ofInt? (n : Int) : Option Binary64 :=
  match ofSignedRatio n 1 with
  | .infinity _ => none
  | x => some x

/-- The integer part of a number; what is not finite has none and counts as zero. -/
def truncate : Binary64 → Int
  | .finite s m e =>
    let r := ratio m e
    if s then -Int.ofNat (r.1 / r.2) else Int.ofNat (r.1 / r.2)
  | _ => 0

/-- Whether the sign of a number is negative. -/
def isNegative : Binary64 → Bool
  | .nan => false
  | .infinity s => s
  | .finite s _ _ => s

/-- The product of two numbers. The product of a zero and an infinity is no number. -/
def mul : Binary64 → Binary64 → Binary64
  | .nan, _ => .nan
  | _, .nan => .nan
  | .finite s m e, .finite s' m' e' =>
    let a := ratio m e
    let b := ratio m' e'
    ofRatio (s != s') (a.1 * b.1) (a.2 * b.2)
  | x, y => if x.isZero || y.isZero then .nan else .infinity (x.isNegative != y.isNegative)

/-- The sum of two numbers. The sum of two opposite infinities is no number. -/
def add : Binary64 → Binary64 → Binary64
  | .nan, _ => .nan
  | _, .nan => .nan
  | .finite s m e, .finite s' m' e' =>
    if m = 0 && m' = 0 then zero (s && s')
    else
      let a := signedRatio s m e
      let b := signedRatio s' m' e'
      ofSignedRatio (a.1 * b.2 + b.1 * a.2) (a.2 * b.2)
  | .infinity s, .infinity s' => if s = s' then .infinity s else .nan
  | .infinity s, _ => .infinity s
  | _, .infinity s => .infinity s

/-- The integer that the number is, if it is one. -/
def toInt? : Binary64 → Option Int
  | .finite s m e =>
    let r := ratio m e
    if r.1 % r.2 = 0 then
      some (if s then -Int.ofNat (r.1 / r.2) else Int.ofNat (r.1 / r.2))
    else none
  | _ => none

/-- Equality of numbers: zeros of both signs are equal, and `nan` equals nothing. -/
def sameNumber : Binary64 → Binary64 → Bool
  | .nan, _ => false
  | _, .nan => false
  | .finite s m e, .finite s' m' e' => (m = 0 && m' = 0) || (s = s' && m = m' && e = e')
  | x, y => x = y

end Binary64

end TypedClient
