/-!
# Numbers

Option values and the parts of a span are given as numbers of the IEEE 754 binary64 format.
A number is kept as what it stands for: not a number, one of the infinities, or an exact
rational that lies on the binary64 grid.  `ofRat` is the only way onto the grid; it takes the
nearest grid point and, half way between two, the one with the even significand.
-/

namespace Marginalia

/-- A binary64 value; the two zeros are one. -/
inductive Number where
  | nan
  | infinity (negative : Bool)
  | finite (value : Rat)
deriving DecidableEq

namespace Number

/-- Significant bits of a binary64 value. -/
def precision : Nat := 53

/-- Exponent of the finest grid spacing. -/
def leastExponent : Int := -1074

/-- Values reach from here on to infinity. -/
def overflow : Nat := Nat.pow 2 1024

/-- The largest integer up to which every integer lies on the grid and none is met by rounding. -/
def maxSafe : Int := 9007199254740991

/-- A quotient rounded to the nearest integer, a tie to the even one. -/
def divideToEven (n d : Nat) : Nat :=
  let quotient := n / d
  let rest := n % d
  if 2 * rest < d then quotient
  else if d < 2 * rest then quotient + 1
  else quotient + quotient % 2

/-- The quotient `n / d` multiplied by a power of `base`, as numerator and denominator. -/
def scale (base : Nat) (n d : Nat) (exponent : Int) : Nat × Nat :=
  (n * Nat.pow base exponent.toNat, d * Nat.pow base (-exponent).toNat)

/-- The exponent of the largest power of two that is at most `n / d`. -/
def floorLog2 (n d : Nat) : Int :=
  let guess : Int := (n.log2 : Int) - d.log2
  let (top, bottom) := scale 2 n d (-guess)
  if bottom ≤ top then guess else guess - 1

/-- The grid point nearest to the positive quotient `n / d`. -/
def nearest (negative : Bool) (n d : Nat) : Number :=
  let exponent := max leastExponent (floorLog2 n d - (precision - 1 : Nat))
  let (top, bottom) := scale 2 n d (-exponent)
  let (whole, part) := scale 2 (divideToEven top bottom) 1 exponent
  if overflow * part ≤ whole then infinity negative
  else finite (mkRat (if negative then -(whole : Int) else whole) part)

/-- The number nearest to a rational. -/
def ofRat (q : Rat) : Number :=
  if q.num = 0 then finite 0 else nearest (q.num < 0) q.num.natAbs q.den

/-- The number nearest to an integer. -/
def ofInt (n : Int) : Number := ofRat n

/-- The number nearest to a natural number. -/
def ofNat (n : Nat) : Number := ofInt n

/-- The number nearest to `coefficient · 10 ^ exponent`. -/
def ofDecimal (coefficient : Int) (exponent : Int) : Number :=
  let (top, bottom) := scale 10 coefficient.natAbs 1 exponent
  ofRat (mkRat (coefficient.sign * top) bottom)

/-- The integer that a number is, if it is one. -/
def integer? : Number → Option Int
  | finite q => if q.den = 1 then some q.num else none
  | _ => none

/-- The natural number that a number is, if it is one. -/
def natural? (x : Number) : Option Nat :=
  match x.integer? with
  | some (.ofNat n) => some n
  | _ => none

end Number

end Marginalia
