import Marginalia.Diagnostic.Basic

/-!
# Outlines

A report goes through a diagnostic and everything related to it from top to bottom.  The outline
is that sequence: each diagnostic with how deep it is nested and with the source its labels point
into, its own or else the nearest one above it.  Below a limit nothing is told but how many
diagnostics are left out.
-/

namespace Marginalia

/-- One thing that a report tells. -/
inductive Entry (κ : Type) where
  /-- A diagnostic at a depth, with the source of its labels. -/
  | told (depth : Nat) (facts : Statement κ) (source : Option Source)
  /-- Diagnostics related to one at a depth are left out. -/
  | omitted (depth count : Nat)

variable {κ : Type}

namespace Entry

/-- What there is to show: a source and labels on it. -/
def shown? : Entry κ → Option (Source × List (Label κ))
  | told _ facts (some source) =>
    if facts.allLabels.isEmpty then none else some (source, facts.allLabels)
  | _ => none

end Entry

namespace Report

mutual

/-- The outline of a diagnostic at a depth, below a diagnostic with a source. -/
def outlineFrom (limit depth : Nat) (inherited : Option Source) : Report κ → List (Entry κ)
  | .alone facts => [.told depth facts (facts.source <|> inherited)]
  | .group facts related =>
    let source := facts.source <|> inherited
    .told depth facts source ::
      (if related.isEmpty then []
      else if limit ≤ depth then [.omitted depth related.length]
      else outlineAll limit (depth + 1) source related)

/-- The outline of diagnostics one after the other. -/
def outlineAll (limit depth : Nat) (inherited : Option Source) :
    List (Report κ) → List (Entry κ)
  | [] => []
  | report :: rest =>
    outlineFrom limit depth inherited report ++ outlineAll limit depth inherited rest

end

/-- The outline of a report that follows related diagnostics down to a limit. -/
def outline (limit : Nat) (report : Report κ) : List (Entry κ) := outlineFrom limit 0 none report

end Report

end Marginalia
