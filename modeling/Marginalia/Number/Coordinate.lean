import Marginalia.Number.Arithmetic
import Marginalia.Number.Text

/-!
# Coordinates

Places and lengths in a source are reckoned in integers where they come from the library itself.
From outside they may come as any number, and nothing keeps a caller from drawing a report with
them before they are checked.  What is reckoned with them is the same in both cases, so it is
written for any kind of coordinate: integers, whose sums are exact, or numbers, whose sums are
rounded.  Whole numbers that are not too large are coordinates of both kinds and mean the same.
-/

namespace Marginalia

/-- A kind of number in which places in a source are reckoned. -/
class Coordinate (κ : Type) extends Add κ, Sub κ, LT κ, LE κ, Min κ, Max κ, NatCast κ where
  decidableLT : DecidableLT κ
  decidableLE : DecidableLE κ
  /-- Whether a coordinate is a number of bytes that can be reckoned with exactly. -/
  isCount : κ → Bool
  /-- The last byte that does not begin behind a coordinate. -/
  index : κ → Nat
  /-- The coordinate as data. -/
  number : κ → Number
  /-- The coordinate as it is shown. -/
  text : κ → String

namespace Coordinate

variable {κ : Type} [Coordinate κ]

instance (x y : κ) : Decidable (x < y) := decidableLT x y

instance (x y : κ) : Decidable (x ≤ y) := decidableLE x y

/-- Whether two coordinates are one place. -/
def Same (x y : κ) : Prop := x ≤ y ∧ y ≤ x

instance (x y : κ) : Decidable (Same x y) := inferInstanceAs (Decidable (_ ∧ _))

end Coordinate

/-- Whether an integer is a number of bytes that lies on the grid with both neighbours. -/
def isByteCount (n : Int) : Bool := 0 ≤ n ∧ n ≤ Number.maxSafe

/-- Integers, reckoned exactly. -/
instance : Coordinate Int where
  decidableLT := inferInstance
  decidableLE := inferInstance
  isCount := isByteCount
  index := Int.toNat
  number := .ofInt
  text n := toString n

/-- Numbers, rounded to the grid. -/
instance : Coordinate Number where
  add := Number.plus
  sub := Number.minus
  lt x y := x.isBelow y = true
  le x y := x.isAtMost y = true
  min := Number.lower
  max := Number.higher
  natCast := Number.ofNat
  decidableLT x y := inferInstanceAs (Decidable (x.isBelow y = true))
  decidableLE x y := inferInstanceAs (Decidable (x.isAtMost y = true))
  isCount x := (x.integer?.map isByteCount).getD false
  index := Number.floor
  number := id
  text := Number.text

end Marginalia
