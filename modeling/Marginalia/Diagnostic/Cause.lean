import Marginalia.Value.Basic

/-!
# Causes

A diagnostic may name what caused it, what caused that, and so on: a chain of links, the outermost
first.  A chain is also made from something thrown.  Thrown errors carry causes of their own, and
causes may come back to an error that was met before, so the chain is cut off after a number of
links.
-/

namespace Marginalia

/-- One cause: what kind of thing it is, and what it says. -/
structure Link where
  kind : String
  message : String
deriving DecidableEq

namespace Link

/-- Links of the longest chain. -/
def most : Nat := 32

/-- The links of a chain that are told. -/
def told (chain : List Link) : List Link := chain.take most

/-- The link that stands for data that is no error, if there is any data. -/
def ofValue? : Value → Option Link
  | .null => none
  | .text message => some ⟨"Error", message⟩
  | .torn units => some ⟨"Error", String.ofList (Text.mended units)⟩
  | other => some ⟨other.kind, other.plain⟩

end Link

/-- Something thrown. -/
inductive Thrown where
  /-- Nothing at all. -/
  | nothing
  /-- Data that is no error. -/
  | value (value : Value)
  /-- An error, and what caused it. -/
  | error (name message : String) (cause : Thrown)
  /-- An error that is its own cause, at once or over other errors. -/
  | cyclic (name message : String) (others : List Link := [])
deriving Inhabited

namespace Thrown

/-- The first link of the chain that something thrown stands for, and what is behind it. -/
def next? : Thrown → Option (Link × Thrown)
  | nothing => none
  | value data => (Link.ofValue? data).map (·, nothing)
  | error name message cause => some (⟨name, message⟩, cause)
  | cyclic name message [] => some (⟨name, message⟩, cyclic name message [])
  | cyclic name message (cause :: others) =>
    some (⟨name, message⟩, cyclic cause.kind cause.message (others ++ [⟨name, message⟩]))

/-- The first links of the chain, as many as are asked for. -/
def links : Nat → Thrown → List Link
  | 0, _ => []
  | count + 1, thrown =>
    match thrown.next? with
    | some (link, rest) => link :: links count rest
    | none => []

/-- The chain that something thrown stands for. -/
def chain (thrown : Thrown) : List Link := thrown.links Link.most

end Thrown

end Marginalia
