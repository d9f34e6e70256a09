/-!
# Splitting

A text cut at every occurrence of one character, which is left out.  There is always one piece
more than there are cuts, so an empty text is one empty piece.
-/

namespace Marginalia.Text

/-- The pieces of a text between occurrences of a character. -/
def split (separator : Char) : List Char → List (List Char)
  | [] => [[]]
  | c :: rest =>
    if c = separator then [] :: split separator rest
    else
      match split separator rest with
      | [] => [[c]]
      | piece :: others => (c :: piece) :: others

/-- Pieces put together again with a character between them. -/
def join (separator : Char) : List (List Char) → List Char
  | [] => []
  | [piece] => piece
  | piece :: rest => piece ++ separator :: join separator rest

end Marginalia.Text
