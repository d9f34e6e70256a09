import Marginalia.Number.Coordinate

/-!
# Line extents

A source is cut into lines behind every line feed.  A carriage return directly in front of the
line feed belongs to the terminator, any other is content.  Behind the last line feed stands one
more line, which has no terminator, may be empty and owns the position at the end of the source.
-/

namespace Marginalia

/-- The bytes of a line, terminator included. -/
structure Extent where
  start : Nat
  /-- The byte behind the terminator. -/
  stop : Nat
  /-- Bytes of the terminator. -/
  terminator : Nat
deriving DecidableEq

namespace Extent

/-- The byte that ends a line. -/
def lineFeed : UInt8 := 0x0A

/-- The byte that may stand in front of a line feed. -/
def carriageReturn : UInt8 := 0x0D

/-- The line that began at `start`, read on from `position`; `returned` says whether the byte in
front is a carriage return of the line. -/
def readFrom (start position : Nat) (returned : Bool) : List UInt8 → Extent
  | [] => ⟨start, position, 0⟩
  | b :: rest =>
    if b = lineFeed then ⟨start, position + 1, if returned then 2 else 1⟩
    else readFrom start (position + 1) (b = carriageReturn) rest

/-- The lines of a source, read on from `position` within the line that began at `start`. -/
def tableFrom (start position : Nat) (returned : Bool) : List UInt8 → List Extent
  | [] => [⟨start, position, 0⟩]
  | b :: rest =>
    if b = lineFeed then
      ⟨start, position + 1, if returned then 2 else 1⟩ ::
        tableFrom (position + 1) (position + 1) false rest
    else tableFrom start (position + 1) (b = carriageReturn) rest

/-- The lines of a source. -/
def table (bytes : List UInt8) : List Extent := tableFrom 0 0 false bytes

/-- The line that begins at `start`; behind the end of the source it ends where the source does. -/
def ofStart (bytes : List UInt8) (start : Nat) : Extent :=
  let line := readFrom start start false (bytes.drop start)
  ⟨line.start, min line.stop bytes.length, line.terminator⟩

/-- Whether the line has no byte at all. -/
def isEmpty (line : Extent) : Bool := line.stop ≤ line.start

variable {κ : Type} [Coordinate κ]

/-- Whether a position is on the line. -/
def Holds (line : Extent) (position : κ) : Prop :=
  (line.start : κ) ≤ position ∧
    (position < (line.stop : κ) ∨ line.terminator = 0 ∧ Coordinate.Same position line.stop)

instance (line : Extent) (position : κ) : Decidable (line.Holds position) :=
  inferInstanceAs (Decidable (_ ∧ (_ ∨ _ ∧ _)))

end Extent

end Marginalia
