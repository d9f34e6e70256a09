/-!
# Terminal escapes

Stretches of text that a terminal obeys and does not show.  A matcher tells how many characters of
an escape stand at the head of a text; `remove` takes out every escape that its matcher finds,
from left to right.
-/

namespace Marginalia.Text

/-- Begins an escape. -/
def esc : Char := '\x1b'

/-- Ends a link. -/
def bell : Char := '\x07'

/-- Stands for an escape and an opening bracket. -/
def introducer : Char := Char.ofNat 0x9B

/-- The escape that selects a rendition by its code. -/
def select (code : Nat) : List Char := esc :: '[' :: (toString code).toList ++ ['m']

/-- Begins a link behind its escape character. -/
def linkStart : List Char := [']', '8', ';', ';']

/-- The escape that begins a link to an address and ends with the given characters; a link to
nowhere ends one. -/
def linkTo (target closing : List Char) : List Char := esc :: linkStart ++ target ++ closing

/-- The length of an escape at the head of a text, if one stands there. -/
abbrev Matcher := List Char → Option Nat

/-- A text without its first `passing` characters and without the escapes behind them. -/
def removeFrom (matcher : Matcher) (passing : Nat) : List Char → List Char
  | [] => []
  | c :: rest =>
    match passing with
    | passing + 1 => removeFrom matcher passing rest
    | 0 =>
      match matcher (c :: rest) with
      | some (length + 1) => removeFrom matcher length rest
      | _ => c :: removeFrom matcher 0 rest

/-- A text without the escapes that a matcher finds. -/
def remove (matcher : Matcher) (cs : List Char) : List Char := removeFrom matcher 0 cs

/-- Numbers with semicolons between them. -/
def isCode (c : Char) : Bool := c.isDigit || c = ';'

/-- What may stand in a link before it ends. -/
def isLinkText (c : Char) : Bool := c ≠ esc ∧ c ≠ bell

/-- Escapes that select a rendition. -/
def renditionEscape : Matcher
  | '\x1b' :: '[' :: rest =>
    let body := (rest.takeWhile isCode).length
    match rest.drop body with
    | 'm' :: _ => some (body + 3)
    | _ => none
  | _ => none

/-- Escapes that begin or end a link. -/
def linkEscape : Matcher
  | '\x1b' :: ']' :: '8' :: ';' :: rest =>
    let body := (rest.takeWhile isLinkText).length
    match rest.drop body with
    | '\x07' :: _ => some (body + 5)
    | '\x1b' :: '\\' :: _ => some (body + 6)
    | _ => none
  | _ => none

/-- The escapes that a report writes. -/
def reportEscape : Matcher := fun cs => renditionEscape cs <|> linkEscape cs

/-- The length of a control sequence behind its introduction: parameters, intermediate characters
and a final one. -/
def controlBody (cs : List Char) : Option Nat :=
  let parameters := (cs.takeWhile fun c => '0' ≤ c ∧ c ≤ '?').length
  let rest := cs.drop parameters
  let between := (rest.takeWhile fun c => ' ' ≤ c ∧ c ≤ '/').length
  match rest.drop between with
  | c :: _ => if '@' ≤ c ∧ c ≤ '~' then some (parameters + between + 1) else none
  | [] => none

/-- What may stand in a command to the terminal before it ends. -/
def isCommandText (c : Char) : Bool :=
  c ≠ esc ∧ c ≠ bell ∧ c.toNat ≠ 0x18 ∧ c.toNat ≠ 0x1A ∧ ¬ (0x80 ≤ c.toNat ∧ c.toNat ≤ 0x9F)

/-- All escapes that a terminal knows: control sequences, and commands with a text. -/
def anyEscape : Matcher
  | '\x1b' :: '[' :: rest => (controlBody rest).map (· + 2)
  | '\x1b' :: ']' :: rest =>
    let body := (rest.takeWhile isCommandText).length
    match rest.drop body with
    | '\x07' :: _ => some (body + 3)
    | '\x1b' :: '\\' :: _ => some (body + 4)
    | c :: _ => if c.toNat = 0x9C then some (body + 3) else none
    | [] => none
  | c :: rest => if c = introducer then (controlBody rest).map (· + 1) else none
  | [] => none

end Marginalia.Text
