import Marginalia.Source.Line

/-!
# Sources

The text that diagnostics point into: its bytes, a name to show and the language it is written in.
-/

namespace Marginalia

/-- A source held in memory. -/
structure Source where
  name : Option String := none
  language : Option String := none
  bytes : List UInt8
deriving DecidableEq

namespace Source

/-- A source from text. -/
def ofText (text : String) (name : Option String := none) (language : Option String := none) :
    Source :=
  ⟨name, language, Utf8.encode text.toList⟩

/-- The same source in another language. -/
def withLanguage (s : Source) (language : String) : Source := { s with language := some language }

/-- Bytes of the source. -/
def size (s : Source) : Nat := s.bytes.length

/-- The lines of a span of the source with lines of context. -/
def read {κ : Type} [Coordinate κ] (s : Source) (span : Span κ) (before : Int) (after : Nat) :
    Except (SpanError κ) (Contents κ) :=
  Contents.read s.bytes span before after

end Source

end Marginalia
