import Marginalia.Text.Blank
import Marginalia.Text.Cluster
import Marginalia.Text.Compose
import Marginalia.Text.Split

/-!
# Filling rows

A paragraph is filled into rows of a number of columns.  Words go on the row in hand while they
fit; a word that is wider than a row is broken into characters.  Blanks at the ends of rows go,
and escapes that are in force at the end of a row are ended there and begun again on the next.
-/

namespace Marginalia.Text

/-- Rows that are being filled. -/
structure Filling where
  /-- The rows in front of the last one, the latest first. -/
  done : List (List Char)
  last : List Char

namespace Filling

/-- One empty row. -/
def empty : Filling := ⟨[], []⟩

/-- The rows in their order. -/
def rows (f : Filling) : List (List Char) := (f.last :: f.done).reverse

/-- The rows with a new one behind them. -/
def push (f : Filling) (row : List Char) : Filling := ⟨f.last :: f.done, row⟩

/-- The rows with text added to the last one. -/
def append (f : Filling) (text : List Char) : Filling := ⟨f.done, f.last ++ text⟩

/-- The rows with the last one joined to the one before it. -/
def rejoin (f : Filling) : Filling :=
  match f.done with
  | [] => f
  | row :: done => ⟨done, row ++ f.last⟩

end Filling

/-- Where a character of a broken word stands. -/
inductive BreakState where
  | text
  /-- Inside an escape that ends with an `m`. -/
  | code
  /-- Inside a link, which ends with a bell. -/
  | link

/-- Whether a character begins an escape. -/
def beginsEscape (c : Char) : Bool := c = esc || c = introducer

/-- The rows with the characters of a word added, and the columns of the last row that count. -/
def breakWord (columns : Nat) (f : Filling) (visible : Nat) (state : BreakState) :
    List Char → Filling × Nat
  | [] => (f, visible)
  | c :: rest =>
    let size := clusteredWidth [c]
    let fits := visible + size ≤ columns
    let f := if fits then f.append [c] else f.push [c]
    let visible := if fits then visible else 0
    let state :=
      if beginsEscape c then if linkStart.isPrefixOf rest then .link else .code else state
    match state with
    | .link => breakWord columns f visible (if c = bell then .text else .link) rest
    | .code => breakWord columns f visible (if c = 'm' then .text else .code) rest
    | .text =>
      if visible + size = columns ∧ rest ≠ [] then breakWord columns (f.push []) 0 .text rest
      else breakWord columns f (visible + size) .text rest

/-- The rows with a word added that is wider than a row.  What is left at the end without columns
of its own stays with the row before it. -/
def addBroken (columns : Nat) (f : Filling) (word : List Char) : Filling :=
  let (f, visible) := breakWord columns f (clusteredWidth f.last) .text word
  if visible = 0 ∧ f.last ≠ [] then f.rejoin else f

/-- The rows with a word added. -/
def addWord (columns : Nat) (isFirst : Bool) (f : Filling) (word : List Char) : Filling :=
  let start := trimStart f.last
  let taken := clusteredWidth start
  let spaced := !isFirst && 0 < taken
  let f : Filling := ⟨f.done, if spaced then start ++ [' '] else start⟩
  let taken := if spaced then taken + 1 else taken
  let size := clusteredWidth word
  if columns < size then
    let rowsHere := 1 + (size + taken - columns - 1) / columns
    let rowsBelow := (size - 1) / columns
    addBroken columns (if rowsBelow < rowsHere then f.push [] else f) word
  else if columns < taken + size ∧ 0 < taken ∧ 0 < size then f.push word
  else f.append word

/-- The rows with words added. -/
def addWords (columns : Nat) (isFirst : Bool) (f : Filling) : List (List Char) → Filling
  | [] => f
  | word :: rest => addWords columns false (addWord columns isFirst f word) rest

/-- A row without the blanks at its end; what takes no columns stays. -/
def trimRow (row : List Char) : List Char :=
  let words := split ' ' row
  let hidden := (words.reverse.takeWhile (clusteredWidth · = 0)).reverse
  if hidden.isEmpty then row
  else join ' ' (words.take (words.length - hidden.length)) ++ hidden.flatten

/-- The code that ends what a rendition code begins. -/
def closingCode (code : Nat) : Option Nat :=
  if code = 0 then some 0
  else if code = 1 ∨ code = 2 then some 22
  else if code = 3 then some 23
  else if code = 4 then some 24
  else if code = 7 then some 27
  else if code = 8 then some 28
  else if code = 9 then some 29
  else if code = 53 then some 55
  else if (30 ≤ code ∧ code ≤ 37) ∨ (90 ≤ code ∧ code ≤ 97) then some 39
  else if (40 ≤ code ∧ code ≤ 47) ∨ (100 ≤ code ∧ code ≤ 107) then some 49
  else none

/-- What is in force at a character of wrapped text. -/
structure Force where
  /-- The code of a rendition. -/
  code : Option Nat := none
  /-- The target of a link. -/
  link : Option (List Char) := none

/-- Whether a character ends a line. -/
def endsLine (c : Char) : Bool := c = '\n' || c = '\r' || c.toNat = 0x2028 || c.toNat = 0x2029

/-- The characters in front of the last bell of a text. -/
def beforeLastBell (cs : List Char) : Option (List Char) :=
  match cs.reverse.dropWhile (· ≠ bell) with
  | [] => none
  | _ :: front => some front.reverse

namespace Force

/-- What is in force after the first rendition of one code, or link, that is found in a text. -/
def update (f : Force) : List Char → Force
  | [] => f
  | c :: rest =>
    let digits := rest.takeWhile Char.isDigit
    if c = '[' ∧ digits ≠ [] ∧ (rest.drop digits.length).head? = some 'm' then
      let code := Nat.ofDigitChars 10 digits 0
      { f with code := if code = 39 then none else some code }
    else if linkStart.isPrefixOf (c :: rest) then
      match beforeLastBell ((rest.drop 3).takeWhile (!endsLine ·)) with
      | some target => { f with link := if target.isEmpty then none else some target }
      | none => update f rest
    else update f rest

/-- The rendition in force and the code that ends it. -/
def rendition (f : Force) : Option (Nat × Nat) :=
  match f.code with
  | some (code + 1) => (closingCode (code + 1)).map ((code + 1), ·)
  | _ => none

/-- The escapes that end what is in force. -/
def off (f : Force) : List Char :=
  (if f.link.isSome then linkTo [] [bell] else []) ++
    ((f.rendition.map fun r => select r.2).getD [])

/-- The escapes that begin again what is in force. -/
def on (f : Force) : List Char :=
  ((f.rendition.map fun r => select r.1).getD []) ++ ((f.link.map (linkTo · [bell])).getD [])

end Force

/-- Wrapped text with nothing in force across its line breaks. -/
def reopenFrom (f : Force) : List Char → List Char
  | [] => []
  | c :: rest =>
    let f := if beginsEscape c then f.update (c :: rest) else f
    let between := if rest.head? = some '\n' then f.off else if c = '\n' then f.on else []
    c :: between ++ reopenFrom f rest

/-- The rows of a paragraph that is not blank. -/
def fillWords (columns : Nat) (paragraph : List Char) : List (List Char) :=
  let filling := addWords columns true .empty (split ' ' paragraph)
  split '\n' (reopenFrom ⟨none, none⟩ (join '\n' (filling.rows.map trimRow)))

/-- The rows of a paragraph, which holds no line feed. -/
def fill (columns : Nat) (paragraph : List Char) : List (List Char) :=
  let composed := compose paragraph
  if (trim composed).isEmpty then [[]] else fillWords columns composed

end Marginalia.Text
