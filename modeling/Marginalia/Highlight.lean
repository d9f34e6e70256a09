import Marginalia.Text.Split

/-!
# Highlighters

A highlighter cuts a line of source into runs of text and says how each run is painted.
-/

namespace Marginalia

/-- A run of text and how it is painted, if it is. -/
structure Run where
  text : List Char
  paint : Option (List Char → List Char) := none

namespace Run

/-- The run as it is shown. -/
def painted (r : Run) : List Char :=
  match r.paint with
  | some paint => paint r.text
  | none => r.text

/-- Runs one behind the other as they are shown. -/
def paintAll (runs : List Run) : List Char := runs.flatMap painted

end Run

/-- A way of cutting lines, their tabs expanded, into runs. -/
structure Highlighter where
  name : String
  runs : List Char → Option String → List Run

namespace Highlighter

/-- A line as it is shown. -/
def paint (h : Highlighter) (line : List Char) (language : Option String) : List Char :=
  Run.paintAll (h.runs line language)

/-- Text between two others. -/
def surround (opening closing : List Char) (text : List Char) : List Char :=
  opening ++ text ++ closing

/-- The line as it is. -/
def plain : Highlighter := ⟨"plain", fun line _ => [⟨line, none⟩]⟩

/-- The whole line in angle brackets. -/
def brackets : Highlighter := ⟨"brackets", fun line _ => [⟨line, some (surround ['<'] ['>'])⟩]⟩

/-- Words as runs, every other one between stars. -/
def starred : Bool → List (List Char) → List Run
  | _, [] => []
  | star, word :: rest =>
    ⟨word, if star then some (surround ['*'] ['*']) else none⟩ ::
      (if rest.isEmpty then [] else [⟨[' '], none⟩]) ++ starred (!star) rest

/-- Every second word between stars. -/
def everySecond : Highlighter := ⟨"words", fun line _ => starred false (Text.split ' ' line)⟩

/-- The name of the language in front of the line. -/
def language : Highlighter :=
  ⟨"language", fun line language =>
    [⟨('\x7b' :: (language.getD "?").toList) ++ ['\x7d'], none⟩, ⟨line, none⟩]⟩

/-- Nothing at all. -/
def empty : Highlighter := ⟨"empty", fun _ _ => []⟩

/-- The highlighters by name. -/
def all : List Highlighter := [plain, brackets, everySecond, language, empty]

/-- The highlighter with a name. -/
def ofName? (s : String) : Option Highlighter := all.find? (·.name = s)

end Highlighter

end Marginalia
