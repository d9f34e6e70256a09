/-!
# UTF-16 units

Debug messages limit lengths in 16-bit code units: a character beyond the basic plane takes two.
A text cut after a given number of units can therefore end in the first half of such a pair, and
data may hold a text that was cut so before.
-/

namespace Marginalia.Text

/-- Code units of a character. -/
def unitsOf (c : Char) : Nat := if c.toNat < 0x10000 then 1 else 2

/-- Code units of a text. -/
def units : List Char → Nat
  | [] => 0
  | c :: rest => unitsOf c + units rest

/-- The first of the two units of a character beyond the basic plane. -/
def leadUnit (c : Char) : Nat := 0xD800 + (c.toNat - 0x10000) / 0x400

/-- The second of the two units of a character beyond the basic plane. -/
def trailUnit (c : Char) : Nat := 0xDC00 + (c.toNat - 0x10000) % 0x400

/-- A character as code units. -/
def toUnits (c : Char) : List Nat :=
  if unitsOf c = 1 then [c.toNat] else [leadUnit c, trailUnit c]

/-- Whether a unit is the first of a pair. -/
def isLead (unit : Nat) : Bool := 0xD800 ≤ unit ∧ unit < 0xDC00

/-- Whether a unit is the second of a pair. -/
def isTrail (unit : Nat) : Bool := 0xDC00 ≤ unit ∧ unit < 0xE000

/-- The character of a pair of units. -/
def ofPair (lead trail : Nat) : Char :=
  Char.ofNat (0x10000 + (lead - 0xD800) * 0x400 + (trail - 0xDC00))

/-- What code units stand for: characters, and units that are half of a pair and stand alone. -/
def ofUnits : List Nat → List (Char ⊕ Nat)
  | [] => []
  | [unit] => [if isLead unit ∨ isTrail unit then .inr unit else .inl (Char.ofNat unit)]
  | lead :: trail :: rest =>
    if isLead lead ∧ isTrail trail then .inl (ofPair lead trail) :: ofUnits rest
    else if isLead lead ∨ isTrail lead then .inr lead :: ofUnits (trail :: rest)
    else .inl (Char.ofNat lead) :: ofUnits (trail :: rest)

/-- The characters that code units stand for, with a sign for each half that stands alone. -/
def mended (units : List Nat) : List Char :=
  (ofUnits units).map fun
    | .inl c => c
    | .inr _ => '\uFFFD'

/-- The characters that lie within the first `limit` units, and the lone unit at the cut if a
pair is split there. -/
def cut : (limit : Nat) → List Char → List Char × Option Nat
  | 0, _ => ([], none)
  | _, [] => ([], none)
  | limit + 1, c :: rest =>
    if unitsOf c = 1 then
      let (kept, lone) := cut limit rest
      (c :: kept, lone)
    else
      match limit with
      | 0 => ([], some (leadUnit c))
      | limit + 1 =>
        let (kept, lone) := cut limit rest
        (c :: kept, lone)

end Marginalia.Text
