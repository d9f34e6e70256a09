import Marginalia.Source.Extent
import Marginalia.Span.Basic

/-!
# Contents

What is read for a span: the lines that it touches with some lines of context around them.  The
reader walks once along the lines of the source.  It looks for the line that holds the beginning
of the span, keeping the last few lines it passes, then for the line that holds the last byte of
the span, and goes on for the lines of context behind.
-/

namespace Marginalia

/-- Lines read from a source. -/
structure Contents (κ : Type) where
  data : List UInt8
  /-- Where the data begins in the source. -/
  start : κ
  /-- The byte behind the data. -/
  stop : Nat
  /-- Index of the first line. -/
  line : Nat
  /-- Bytes of the first line in front of the data. -/
  column : κ
  /-- Lines that the data touches. -/
  lineCount : Nat
deriving DecidableEq

namespace Contents

variable {κ : Type}

/-- The index of the line behind the last one. -/
def reach (c : Contents κ) : Nat := c.line + c.lineCount

/-- The line on which a span begins. -/
structure Opening where
  /-- Where the lines kept in front of it begin, the farthest one first. -/
  leading : List Nat
  /-- Lines in front of those. -/
  dropped : Nat
  /-- Index of the line. -/
  index : Nat
  /-- Where the line begins. -/
  start : Nat
deriving DecidableEq

/-- How far the reader has come. -/
inductive Progress where
  /-- The span begins on a line still to come. -/
  | ahead (leading : List Nat) (dropped : Nat)
  /-- The span has begun and its last byte is still to come. -/
  | within (top : Opening)
  /-- The last byte is on the line `last`; `trailing` lines behind it are taken, up to `stop`. -/
  | behind (top : Opening) (last stop trailing : Nat)
deriving DecidableEq

variable [Coordinate κ]

/-- The bytes read, as a span of the source. -/
def span (c : Contents κ) : Span κ := ⟨c.start, (c.stop : κ) - c.start⟩

/-- The last byte of a span; a point counts as the byte behind it. -/
def lastByte (s : Span κ) : κ :=
  if ((0 : Nat) : κ) < s.length then s.stop - ((1 : Nat) : κ) else s.offset

namespace Progress

/-- A line in front of the span is passed; the farthest one is given up for it if `keep` lines
are kept already. -/
def pass (keep : Nat) (leading : List Nat) (dropped : Nat) (line : Extent) : Progress :=
  if leading.length < keep then ahead (leading ++ [line.start]) dropped
  else ahead (leading ++ [line.start]).tail (dropped + 1)

/-- The last byte of a span that has begun is looked for on a line. -/
def reach (s : Span κ) (top : Opening) (index : Nat) (line : Extent) : Progress :=
  if line.Holds (lastByte s) then behind top index line.stop 0 else within top

/-- One more line. -/
def step (keep : Nat) (s : Span κ) (after index : Nat) (line : Extent) : Progress → Progress
  | ahead leading dropped =>
    if line.Holds s.offset then reach s ⟨leading, dropped, index, line.start⟩ index line
    else pass keep leading dropped line
  | within top => reach s top index line
  | behind top last stop trailing =>
    if trailing < after ∧ ¬line.isEmpty then behind top last line.stop (trailing + 1)
    else behind top last stop trailing

/-- Whether no line is missing any more. -/
def isDone (after : Nat) : Progress → Bool
  | behind _ _ _ trailing => after ≤ trailing
  | _ => false

/-- One line after the other, the first one with the given index, until none is missing. -/
def walk (keep : Nat) (s : Span κ) (after index : Nat) (p : Progress) : List Extent → Progress
  | [] => p
  | line :: rest =>
    let p := p.step keep s after index line
    if p.isDone after then p else walk keep s after (index + 1) p rest

end Progress

/-- Bytes of a source from one position to another. -/
def slice (bytes : List UInt8) (start stop : Nat) : List UInt8 :=
  (bytes.drop start).take (stop - start)

/-- The lines of a span with up to `before` lines in front and up to `after` lines behind, a last
line without bytes not counted.  Where no lines in front are asked for, the data begins at the
span itself; a negative number of them asks for none but begins at the line of the span. -/
def read (bytes : List UInt8) (s : Span κ) (before : Int) (after : Nat) :
    Except (SpanError κ) (Contents κ) :=
  if (bytes.length : κ) < s.stop then .error (.exceeds s bytes.length)
  else
    match Progress.walk before.toNat s after 0 (.ahead [] 0) (Extent.table bytes) with
    | .behind top last stop trailing =>
      let start : κ := if before = 0 then s.offset else (top.leading.headD top.start : Nat)
      let line := if before = 0 then top.index else top.dropped
      .ok {
        data := slice bytes (Coordinate.index start) stop
        start := start
        stop := stop
        line := line
        column := if before = 0 then s.offset - (top.start : κ) else ((0 : Nat) : κ)
        lineCount := last + trailing + 1 - line }
    | _ => .error (.unlocated s)

/-- The line of a position and its bytes in front of the position. -/
def locate (bytes : List UInt8) (position : κ) : Except (SpanError κ) (Nat × κ) :=
  (read bytes ⟨position, ((0 : Nat) : κ)⟩ 0 0).map fun c => (c.line, c.column)

end Contents

end Marginalia
