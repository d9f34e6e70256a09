import Marginalia.Text.Composition

/-!
# Composed text

A text is brought into the form in which equal texts are written alike.  Every character is taken
apart, marks on one base are put in the order of their classes, and then bases and marks are
composed where there is one character for both.  A mark joins the base in front of it unless
another mark of its class or a higher one stands between them.
-/

namespace Marginalia.Text

/-- The leading consonants, vowels and trailing consonants of a syllable of Hangul. -/
def takeApartHangul (c : Char) : List Char :=
  let index := c.toNat - 0xAC00
  let front := [Char.ofNat (0x1100 + index / 588), Char.ofNat (0x1161 + index % 588 / 28)]
  if index % 28 = 0 then front else front ++ [Char.ofNat (0x11A7 + index % 28)]

/-- The syllable of a leading consonant with a vowel, or of a syllable with a trailing consonant. -/
def composeHangul (first second : Char) : Option Char :=
  let a := first.toNat
  let b := second.toNat
  if 0x1100 ≤ a ∧ a < 0x1113 ∧ 0x1161 ≤ b ∧ b < 0x1176 then
    some (Char.ofNat (0xAC00 + ((a - 0x1100) * 21 + (b - 0x1161)) * 28))
  else if 0xAC00 ≤ a ∧ a ≤ 0xD7A3 ∧ (a - 0xAC00) % 28 = 0 ∧ 0x11A8 ≤ b ∧ b < 0x11C3 then
    some (Char.ofNat (a + (b - 0x11A7)))
  else none

/-- The character that two characters compose to. -/
def composePair (first second : Char) : Option Char :=
  ((compositions.find? fun (base, mark, _) => base = first ∧ mark = second).map (·.2.2)) <|>
    composeHangul first second

/-- A composed letter may be taken apart this often. -/
def deepest : Nat := 4

/-- A character taken apart by a table of compositions in at most so many steps. -/
def takeApartIn (table : List (Char × Char × Char)) : Nat → Char → List Char
  | 0, c => [c]
  | steps + 1, c =>
    match table.find? fun (_, _, composed) => composed = c with
    | some (base, mark, _) => takeApartIn table steps base ++ [mark]
    | none => [c]

/-- A character taken apart into a base and its marks. -/
def takeApart (c : Char) : List Char :=
  if 0xAC00 ≤ c.toNat ∧ c.toNat ≤ 0xD7A3 then takeApartHangul c
  else
    match writtenApart.lookup c.toNat with
    | some parts => parts.map Char.ofNat
    | none =>
      match ideograph? c.toNat with
      | some other => [other]
      | none => takeApartIn compositions deepest c

/-- A mark put in front of a text of ordered marks, behind those of a lower class. -/
def insertMark (mark : Char) : List Char → List Char
  | [] => [mark]
  | c :: rest =>
    if 0 < markClass c ∧ markClass c < markClass mark then c :: insertMark mark rest
    else mark :: c :: rest

/-- A text with the marks of each base in the order of their classes. -/
def orderMarks : List Char → List Char
  | [] => []
  | c :: rest => if markClass c = 0 then c :: orderMarks rest else insertMark c (orderMarks rest)

/-- A text behind a base and the marks that it does not take, the latest first. -/
def composeFrom (base : Char) (marks : List Char) : List Char → List Char
  | [] => base :: marks.reverse
  | c :: rest =>
    let isFree :=
      match marks with
      | [] => true
      | last :: _ => markClass last < markClass c
    match (if isFree then composePair base c else none) with
    | some composed => composeFrom composed marks rest
    | none =>
      if markClass c = 0 then base :: (marks.reverse ++ composeFrom c [] rest)
      else composeFrom base (c :: marks) rest

/-- A text with its bases and marks composed. -/
def composeMarks : List Char → List Char
  | [] => []
  | c :: rest => if markClass c = 0 then composeFrom c [] rest else c :: composeMarks rest

/-- From here on there are marks, and characters that may be written in two ways. -/
def firstMark : Nat := 0x300

/-- A text in its composed form.  Letters below the first mark are composed as they are. -/
def compose (cs : List Char) : List Char :=
  if cs.all (·.toNat < firstMark) then cs
  else composeMarks (orderMarks (cs.flatMap takeApart))

end Marginalia.Text
