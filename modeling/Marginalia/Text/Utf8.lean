/-!
# UTF-8

Text as bytes.  Decoding never fails: a malformed stretch becomes replacement characters, one
for each longest piece that could have begun a character, and a byte-order mark at the very
start is dropped.
-/

namespace Marginalia.Utf8

/-- Bytes of the character with a code point. -/
def size (codePoint : Nat) : Nat :=
  if codePoint < 0x80 then 1
  else if codePoint < 0x800 then 2
  else if codePoint < 0x10000 then 3
  else 4

/-- Bytes of a character. -/
def charSize (c : Char) : Nat := size c.toNat

/-- Bytes of a text. -/
def length : List Char → Nat
  | [] => 0
  | c :: rest => charSize c + length rest

/-- The bytes of a text. -/
def encode (cs : List Char) : List UInt8 := cs.flatMap String.utf8EncodeChar

/-- Stands for bytes that are no text. -/
def replacement : Char := '\uFFFD'

/-- The byte-order mark. -/
def mark : Char := '\uFEFF'

/-- A character whose first bytes have been read. -/
structure Pending where
  /-- The bits read so far. -/
  bits : Nat
  /-- Bytes still to come, less one. -/
  more : Nat
  /-- The least byte that may come next. -/
  least : Nat := 0x80
  /-- The greatest byte that may come next. -/
  most : Nat := 0xBF

/-- What a byte at the start of a character does: characters to write, and the state after it. -/
def start (b : UInt8) : List Char × Option Pending :=
  let n := b.toNat
  if n < 0x80 then ([Char.ofNat n], none)
  else if n < 0xC2 then ([replacement], none)
  else if n < 0xE0 then ([], some ⟨n - 0xC0, 0, 0x80, 0xBF⟩)
  else if n = 0xE0 then ([], some ⟨n - 0xE0, 1, 0xA0, 0xBF⟩)
  else if n = 0xED then ([], some ⟨n - 0xE0, 1, 0x80, 0x9F⟩)
  else if n < 0xF0 then ([], some ⟨n - 0xE0, 1, 0x80, 0xBF⟩)
  else if n = 0xF0 then ([], some ⟨n - 0xF0, 2, 0x90, 0xBF⟩)
  else if n < 0xF4 then ([], some ⟨n - 0xF0, 2, 0x80, 0xBF⟩)
  else if n = 0xF4 then ([], some ⟨n - 0xF0, 2, 0x80, 0x8F⟩)
  else ([replacement], none)

/-- What a byte does in a state. -/
def step (state : Option Pending) (b : UInt8) : List Char × Option Pending :=
  match state with
  | none => start b
  | some p =>
    if p.least ≤ b.toNat ∧ b.toNat ≤ p.most then
      let bits := p.bits * 64 + b.toNat % 64
      match p.more with
      | 0 => ([Char.ofNat bits], none)
      | more + 1 => ([], some ⟨bits, more, 0x80, 0xBF⟩)
    else
      let (written, next) := start b
      (replacement :: written, next)

/-- The characters of bytes that are read in a state. -/
def decodeFrom (state : Option Pending) : List UInt8 → List Char
  | [] => if state.isSome then [replacement] else []
  | b :: rest => (step state b).1 ++ decodeFrom (step state b).2 rest

/-- A text without a byte-order mark at its start. -/
def withoutMark : List Char → List Char
  | [] => []
  | c :: rest => if c = mark then rest else c :: rest

/-- The text of bytes. -/
def decode (bytes : List UInt8) : List Char := withoutMark (decodeFrom none bytes)

end Marginalia.Utf8
