import Marginalia.Number.Coordinate
import Marginalia.Text.Utf8
import Marginalia.Text.Width

/-!
# Columns of bytes

Where a byte of a line stands on the terminal.  A byte between two characters stands behind the
text in front of it.  A byte inside a character has no text of its own in front of it, so a walk
along the characters stops at the first one that does not begin in front of the byte, and the
character counts as passed.  Bytes behind the content belong to the terminator, which counts as one
column.
-/

namespace Marginalia.Text

variable {κ : Type} [Coordinate κ]

/-- Whether `target` lies between characters of a text that begins at `position`, or at one of its
ends. -/
def isBoundaryFrom (target : κ) (position : Nat) : List Char → Bool
  | [] => Coordinate.Same (position : κ) target
  | c :: rest =>
    if target ≤ (position : κ) then Coordinate.Same (position : κ) target
    else isBoundaryFrom target (position + Utf8.charSize c) rest

/-- Whether a byte lies between characters of a text, or at one of its ends. -/
def isBoundary (cs : List Char) (byte : κ) : Bool := isBoundaryFrom byte 0 cs

/-- The characters of a text that begins at `position`, up to the first one that does not begin in
front of `target`. -/
def sliceFrom (target : κ) (position : Nat) : List Char → List Char
  | [] => []
  | c :: rest =>
    if target ≤ (position : κ) then []
    else c :: sliceFrom target (position + Utf8.charSize c) rest

/-- The characters of a text in front of a byte. -/
def slice (cs : List Char) (byte : κ) : List Char := sliceFrom byte 0 cs

/-- The column reached by walking from `position` over the characters that begin in front of
`target`. -/
def walk (tab : Nat) (target : κ) (position column : Nat) : List Char → Nat
  | [] => column
  | c :: rest =>
    if target ≤ (position : κ) then column
    else walk tab target (position + Utf8.charSize c) (advance tab column c) rest

/-- The column, from zero, of a byte of a line. -/
def columnOf (tab : Nat) (content : List Char) (byte : κ) : Nat :=
  if (Utf8.length content : κ) < byte then width tab content + 1
  else if isBoundary content byte then width tab (slice content byte)
  else walk tab byte 0 0 content

/-- The column of a byte as it is told: from one where something starts; where it ends, the last
column taken. -/
def displayColumn (tab : Nat) (content : List Char) (byte : κ) (isStart : Bool) : Nat :=
  columnOf tab content byte + if isStart then 1 else 0

end Marginalia.Text
