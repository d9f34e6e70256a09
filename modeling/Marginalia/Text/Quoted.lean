import Marginalia.Text.Units

/-!
# Quoted text

Text between double quotes.  The quote, the backslash and the control characters below the space
are escaped, five of the controls by a letter and the others by their code; everything else
stands for itself.
-/

namespace Marginalia.Text

/-- The last digit of `n` in base sixteen. -/
def hexDigit (n : Nat) : Char := Nat.digitChar (n % 16)

/-- A code unit as an escape of four digits. -/
def escapeUnit (n : Nat) : List Char :=
  ['\\', 'u', hexDigit (n / 4096), hexDigit (n / 256), hexDigit (n / 16), hexDigit n]

/-- A character inside quotes. -/
def escapeChar (c : Char) : List Char :=
  if c = '"' then ['\\', '"']
  else if c = '\\' then ['\\', '\\']
  else if c = '\n' then ['\\', 'n']
  else if c = '\r' then ['\\', 'r']
  else if c = '\t' then ['\\', 't']
  else if c.toNat = 8 then ['\\', 'b']
  else if c.toNat = 12 then ['\\', 'f']
  else if c.toNat < 32 then escapeUnit c.toNat
  else [c]

/-- The characters of a text as they stand inside quotes. -/
def escape (cs : List Char) : List Char := cs.flatMap escapeChar

/-- A text in quotes. -/
def quote (cs : List Char) : List Char := '"' :: escape cs ++ ['"']

/-- A text in quotes that is given by its code units; a half that stands alone is escaped. -/
def quoteUnits (units : List Nat) : List Char :=
  let inside := (ofUnits units).flatMap fun
    | .inl c => escapeChar c
    | .inr unit => escapeUnit unit
  '"' :: inside ++ ['"']

/-- Three dots. -/
def dots : List Char := ['.', '.', '.']

/-- A text in quotes that is cut after `kept` code units when it has more than `limit`; three dots
stand for what is left out, and a split pair leaves the escape of its first half. -/
def quoteCut (limit kept : Nat) (cs : List Char) : List Char :=
  if units cs ≤ limit then quote cs
  else
    let (head, lone) := cut kept cs
    '"' :: escape head ++ (lone.map escapeUnit).getD [] ++ dots ++ ['"']

/-- The same for a text that is given by its code units. -/
def quoteUnitsCut (limit kept : Nat) (units : List Nat) : List Char :=
  if units.length ≤ limit then quoteUnits units
  else quoteUnits (units.take kept ++ dots.map Char.toNat)

end Marginalia.Text
