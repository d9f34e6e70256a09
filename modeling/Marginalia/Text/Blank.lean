import Marginalia.Text.Ranges

/-!
# Blanks

The characters that count as blank at the ends of a text: the ASCII ones, the space separators,
the two separators of lines and paragraphs, and the byte-order mark.
-/

namespace Marginalia.Text

/-- Inclusive ranges of blank code points, ascending. -/
def blankRanges : List (Nat × Nat) :=
  [(0x9, 0xD), (0x20, 0x20), (0xA0, 0xA0), (0x1680, 0x1680), (0x2000, 0x200A), (0x2028, 0x2029),
    (0x202F, 0x202F), (0x205F, 0x205F), (0x3000, 0x3000), (0xFEFF, 0xFEFF)]

/-- Whether a character is blank. -/
def isBlank (c : Char) : Bool := covers blankRanges c.toNat

/-- A text without the blanks at its start. -/
def trimStart (cs : List Char) : List Char := cs.dropWhile isBlank

/-- A text without the blanks at its end. -/
def trimEnd (cs : List Char) : List Char := (trimStart cs.reverse).reverse

/-- A text without the blanks at its ends. -/
def trim (cs : List Char) : List Char := trimEnd (trimStart cs)

end Marginalia.Text
