import Marginalia.Text.Wide
import Marginalia.Text.Invisible

/-!
# Display width

Columns that text takes on a terminal.  Wide characters take two columns and invisible ones none;
a tab goes on to the next tab stop, so its width depends on the column where it stands.
-/

namespace Marginalia.Text

/-- Columns of a character other than a tab. -/
def widthOf (c : Char) : Nat :=
  if isInvisible c then 0 else if isWide c then 2 else 1

/-- Columns of a text that is one glyph: a single character may be invisible, a longer text is as
wide as its first character. -/
def glyphWidth : List Char → Nat
  | [] => 0
  | [c] => widthOf c
  | c :: _ :: _ => if isWide c then 2 else 1

/-- Columns from `column` to the next tab stop. -/
def tabStop (tab column : Nat) : Nat := tab - column % tab

/-- The column behind a character that stands at `column`. -/
def advance (tab column : Nat) (c : Char) : Nat :=
  column + (if c = '\t' then tabStop tab column else widthOf c)

/-- The column behind a text that begins at `column`. -/
def columnAfter (tab : Nat) (column : Nat) (cs : List Char) : Nat := cs.foldl (advance tab) column

/-- Columns of a text. -/
def width (tab : Nat) (cs : List Char) : Nat := columnAfter tab 0 cs

/-- A text that begins at `column`, its tabs replaced by spaces. -/
def expandTabsFrom (tab : Nat) (column : Nat) : List Char → List Char
  | [] => []
  | c :: rest =>
    (if c = '\t' then List.replicate (tabStop tab column) ' ' else [c]) ++
      expandTabsFrom tab (advance tab column c) rest

/-- A text with spaces up to the next tab stop in place of each tab; a text without tabs is left as
it is. -/
def expandTabs (tab : Nat) (cs : List Char) : List Char :=
  if cs.contains '\t' then expandTabsFrom tab 0 cs else cs

/-- Distance of tab stops where nothing else is asked for. -/
def defaultTab : Nat := 4

end Marginalia.Text
