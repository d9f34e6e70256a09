import Marginalia.Source.Contents
import Marginalia.Text.Utf8

/-!
# Lines

The lines of a window as text.  The bytes are decoded first and then cut behind every line feed,
so each line knows its place from the characters in front of it.  Where the bytes were no proper
text, or began with a byte-order mark, these places differ from those of the bytes.
-/

namespace Marginalia

/-- A line of a window. -/
structure Line (κ : Type) where
  /-- The number of the line in the source, from one. -/
  number : Nat
  /-- Where the line begins in the source. -/
  offset : κ
  /-- Bytes of the line, terminator included. -/
  length : κ
  /-- The line with its terminator. -/
  text : List Char
  /-- The line without its terminator. -/
  content : List Char
  /-- Whether the source ends with this line, and without a terminator. -/
  atEnd : Bool
deriving DecidableEq

namespace Line

/-- A text cut behind every line feed. -/
def pieces : List Char → List (List Char)
  | [] => []
  | c :: rest =>
    if c = '\n' then [c] :: pieces rest
    else
      match pieces rest with
      | [] => [[c]]
      | piece :: others => (c :: piece) :: others

/-- A piece without the line feed at its end and a carriage return in front of that. -/
def withoutTerminator (piece : List Char) : List Char :=
  match piece.reverse with
  | '\n' :: '\r' :: rest => rest.reverse
  | '\n' :: rest => rest.reverse
  | _ => piece

/-- Whether a piece ends with a line feed. -/
def isTerminated (piece : List Char) : Bool := piece.getLast? = some '\n'

variable {κ : Type} [Coordinate κ]

/-- The byte behind the line. -/
def stop (line : Line κ) : κ := line.offset + line.length

/-- The place behind a text that begins at a place, found by passing its characters one by one; a
carriage return and its line feed are passed together. -/
def pass (place : κ) : List Char → κ
  | [] => place
  | '\r' :: '\n' :: rest => pass (place + ((2 : Nat) : κ)) rest
  | c :: rest => pass (place + (Utf8.charSize c : κ)) rest

/-- Pieces as lines, the first with the given number and place, in a source of `size` bytes. -/
def place (size number : Nat) (offset : κ) : List (List Char) → List (Line κ)
  | [] => []
  | piece :: rest =>
    let stop := pass offset piece
    { number, offset
      length := stop - offset
      text := piece
      content := withoutTerminator piece
      atEnd := !isTerminated piece && Coordinate.Same stop (size : κ) } ::
      place size (number + 1) stop rest

/-- The lines of a window into a source of `size` bytes. -/
def scan (c : Contents κ) (size : Nat) : List (Line κ) :=
  place size (c.line + 1) c.start (pieces (Utf8.decode c.data))

end Line

end Marginalia
