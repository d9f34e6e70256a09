import Marginalia.Text.Capital

/-!
# Small letters

A text in small letters.  Each capital has one small letter but for two of them: sigma takes its
final form at the end of a word, and the dotted capital I keeps its dot as a mark.
-/

namespace Marginalia.Text

/-- The capital whose small letter depends on its place. -/
def sigma : Char := 'Σ'

/-- The capital I with a dot. -/
def dottedI : Char := 'İ'

/-- Whether the word goes on: the next character that counts is a letter. -/
def goesOn : List Char → Bool
  | [] => false
  | c :: rest => if isPassed c then goesOn rest else isCased c

/-- A text in small letters; `inWord` says whether the last character in front that counts is a
letter. -/
def lowerFrom (inWord : Bool) : List Char → List Char
  | [] => []
  | c :: rest =>
    let small :=
      if c = sigma then [if inWord && !goesOn rest then 'ς' else 'σ']
      else if c = dottedI then ['i', '\u0307']
      else [lowerChar c]
    small ++ lowerFrom (if isPassed c then inWord else isCased c) rest

/-- A text in small letters. -/
def lower (cs : List Char) : List Char := lowerFrom false cs

end Marginalia.Text
