import Marginalia.Number.Basic

/-!
# Number text

A number is written with the fewest decimal digits that read back as the same number, and of
those the nearest ones.  Part one finds the digits; part two lays them out, in positional form
in a middle range of sizes and with an exponent outside of it.
-/

namespace Marginalia

/-- Decimal digits, read as a fraction behind the point, times ten to the power `point`. -/
structure Decimal where
  digits : List Char
  point : Int
deriving DecidableEq

namespace Decimal

/-- The least `point` such that the positive quotient `n / d` is below ten to its power. -/
def magnitude (n d : Nat) : Int :=
  let guess : Int := ((toString n).length : Int) - (toString d).length
  let (top, bottom) := Number.scale 10 n d (-guess)
  if top < bottom then guess else guess + 1

/-- Digits of a coefficient, without the zeros at its end. -/
def ofCoefficient (coefficient : Nat) (exponent : Int) : Decimal :=
  let digits := (toString coefficient).toList
  ⟨(digits.reverse.dropWhile (· = '0')).reverse, exponent + digits.length⟩

/-- The nearest decimal of `count` digits that reads back as the positive quotient `n / d`. -/
def withDigits (n d count : Nat) : Option Decimal :=
  let exponent := magnitude n d - count
  let (top, bottom) := Number.scale 10 n d (-exponent)
  let below := top / bottom
  let near := Number.divideToEven top bottom
  let far := 2 * below + 1 - near
  let readsBack (coefficient : Nat) : Bool :=
    Number.ofDecimal coefficient exponent = .finite (mkRat n d)
  ([near, far].find? readsBack).map (ofCoefficient · exponent)

/-- The shortest decimal that reads back as the positive quotient `n / d`. -/
def shortest (n d : Nat) : Decimal :=
  (((List.range 17).map (· + 1)).findSome? (withDigits n d)).getD ⟨['0'], 1⟩

/-- Where positional writing begins and ends. -/
structure Layout where
  /-- The largest `point` written positionally. -/
  most : Int
  /-- The smallest `point` written positionally. -/
  least : Int

/-- Positional from a millionth up to and without ten to the power 21. -/
def standard : Layout := ⟨21, -5⟩

/-- A number of zeros. -/
def zeros (count : Int) : List Char := List.replicate count.toNat '0'

/-- The digits laid out with a decimal point or an exponent. -/
def write (layout : Layout) (x : Decimal) : List Char :=
  let size : Int := x.digits.length
  if x.point < layout.least ∨ layout.most < x.point then
    let fraction := x.digits.drop 1
    let power := x.point - 1
    x.digits.take 1 ++ (if fraction.isEmpty then [] else '.' :: fraction) ++
      'e' :: (if power < 0 then '-' else '+') :: (toString power.natAbs).toList
  else if size ≤ x.point then x.digits ++ zeros (x.point - size)
  else if 0 < x.point then x.digits.take x.point.toNat ++ '.' :: x.digits.drop x.point.toNat
  else '0' :: '.' :: zeros (-x.point) ++ x.digits

end Decimal

namespace Number

/-- The text of a number. -/
def text : Number → String
  | nan => "NaN"
  | infinity negative => if negative then "-Infinity" else "Infinity"
  | finite q =>
    if q.num = 0 then "0"
    else
      let digits := String.ofList ((Decimal.shortest q.num.natAbs q.den).write Decimal.standard)
      if q.num < 0 then "-" ++ digits else digits

end Number

end Marginalia
