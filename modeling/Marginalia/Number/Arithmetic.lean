import Marginalia.Number.Basic

/-!
# Arithmetic

Sums and differences of numbers are the exact ones, taken to the nearest point of the grid.  What
is no number is neither above nor below anything, not even at its own place, and spoils whatever
is reckoned with it.
-/

namespace Marginalia.Number

/-- The number on the other side of zero. -/
def opposite : Number → Number
  | nan => nan
  | infinity negative => infinity (!negative)
  | finite q => finite (-q)

/-- The sum of two numbers. -/
def plus : Number → Number → Number
  | finite a, finite b => ofRat (a + b)
  | finite _, infinity s => infinity s
  | infinity s, finite _ => infinity s
  | infinity s, infinity t => if s = t then infinity s else nan
  | nan, _ | _, nan => nan

/-- The difference of two numbers. -/
def minus (x y : Number) : Number := x.plus y.opposite

/-- Whether a number is below another one. -/
def isBelow : Number → Number → Bool
  | finite a, finite b => a < b
  | finite _, infinity t => !t
  | infinity s, finite _ => s
  | infinity s, infinity t => s && !t
  | nan, _ | _, nan => false

/-- Whether a number is below another one or equal to it. -/
def isAtMost : Number → Number → Bool
  | finite a, finite b => a ≤ b
  | finite _, infinity t => !t
  | infinity s, finite _ => s
  | infinity s, infinity t => s || !t
  | nan, _ | _, nan => false

/-- The lower one of two numbers. -/
def lower : Number → Number → Number
  | nan, _ | _, nan => nan
  | x, y => if x.isAtMost y then x else y

/-- The higher one of two numbers. -/
def higher : Number → Number → Number
  | nan, _ | _, nan => nan
  | x, y => if x.isAtMost y then y else x

/-- The natural number reached from zero without going behind a number. -/
def floor : Number → Nat
  | finite q => q.floor.toNat
  | _ => 0

/-- The integer that a number is, if it is one and so small that sums of a few of its like are
exact. -/
def exactInteger? (x : Number) : Option Int :=
  match x.integer? with
  | some n => if n.natAbs ≤ Nat.pow 2 50 then some n else none
  | none => none

end Marginalia.Number
