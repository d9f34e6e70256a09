/-!
# Ranges of code points

A property of characters is given as a list of inclusive ranges in ascending order, which lets
the search stop at the first range that begins behind the code point.
-/

namespace Marginalia.Text

/-- Whether one of the ascending ranges covers a code point. -/
def covers : List (Nat × Nat) → Nat → Bool
  | [], _ => false
  | (first, last) :: rest, n =>
    if n < first then false else if n ≤ last then true else covers rest n

end Marginalia.Text
