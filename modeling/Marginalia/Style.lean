import Marginalia.Text.Escape

/-!
# Styles

A style is a chain of terminal escape pairs, the outermost first.  Text that already holds escapes
keeps the style behind each of them that would end it, and the style is taken off before each line
break and put on again behind it.
-/

namespace Marginalia

/-- The codes that turn a rendition on and off. -/
structure Rendition where
  opening : Nat
  closing : Nat
deriving DecidableEq

namespace Rendition

/-- Heavy text. -/
def bold : Rendition := ⟨1, 22⟩

/-- Faint text. -/
def dim : Rendition := ⟨2, 22⟩

/-- Underlined text. -/
def underline : Rendition := ⟨4, 24⟩

/-- Red text. -/
def red : Rendition := ⟨31, 39⟩

/-- Green text. -/
def green : Rendition := ⟨32, 39⟩

/-- Yellow text. -/
def yellow : Rendition := ⟨33, 39⟩

/-- Magenta text. -/
def magenta : Rendition := ⟨35, 39⟩

/-- Cyan text. -/
def cyan : Rendition := ⟨36, 39⟩

/-- The escape that turns the rendition on. -/
def on (r : Rendition) : List Char := Text.select r.opening

/-- The escape that turns the rendition off. -/
def off (r : Rendition) : List Char := Text.select r.closing

/-- A text with the rendition turned on again behind each escape that turns it off; `left` counts
the characters of such an escape that are still to be copied. -/
def reopen (r : Rendition) (left : Nat) : List Char → List Char
  | [] => []
  | c :: rest =>
    match left with
    | 0 => c :: reopen r (if r.off.isPrefixOf (c :: rest) then r.off.length - 1 else 0) rest
    | 1 => c :: (r.on ++ reopen r 0 rest)
    | left + 2 => c :: reopen r (left + 1) rest

end Rendition

/-- Renditions that hold together, the outermost first; none at all leaves text as it is. -/
abbrev Style := List Rendition

namespace Style

/-- The style that changes nothing. -/
def plain : Style := []

/-- The escapes that turn the style on. -/
def on (s : Style) : List Char := s.flatMap Rendition.on

/-- The escapes that turn the style off. -/
def off (s : Style) : List Char := s.reverse.flatMap Rendition.off

/-- A text whose line breaks stand outside the style. -/
def acrossLines (s : Style) : List Char → List Char
  | [] => []
  | '\r' :: '\n' :: rest => s.off ++ '\r' :: '\n' :: (s.on ++ acrossLines s rest)
  | '\n' :: rest => s.off ++ '\n' :: (s.on ++ acrossLines s rest)
  | c :: rest => c :: acrossLines s rest

/-- A text whose own escapes do not end the style. -/
def acrossEscapes (s : Style) (text : List Char) : List Char :=
  s.foldr (fun rendition inner => rendition.reopen 0 inner) text

/-- A text in the style; an empty text stays empty. -/
def paint (s : Style) (text : List Char) : List Char :=
  if text.isEmpty then []
  else s.on ++ acrossLines s (acrossEscapes s text) ++ s.off

end Style

end Marginalia
