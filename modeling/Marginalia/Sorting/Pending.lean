import Marginalia.Sorting.Merging

/-!
# Pending runs

The runs of a list are found from front to back and wait to be merged.  They are merged early
enough to keep the waiting ones in proportion: every run is longer than the two behind it taken
together.  At the end the rest is merged.
-/

namespace Marginalia.Sorting

variable {α : Type}

/-- Runs that wait to be merged. -/
structure Pending (α : Type) where
  /-- How often a run must win in a row before the runs leap. -/
  patience : Nat
  /-- The runs, the latest first. -/
  runs : List (List α)

namespace Pending

/-- Whether the latest runs are in proportion. -/
def isBalanced (p : Pending α) : Bool :=
  match p.runs.map List.length with
  | last :: second :: third :: fourth :: _ =>
    last < second ∧ second + last < third ∧ third + second < fourth
  | [last, second, third] => last < second ∧ second + last < third
  | [last, second] => last < second
  | _ => true

/-- Whether there is nothing to merge. -/
def isSingle (p : Pending α) : Bool := p.runs.length ≤ 1

variable (before : α → α → Bool)

/-- The second run merged with the shorter one of its neighbours. -/
def mergeLatest (p : Pending α) : Pending α :=
  match p.runs with
  | last :: second :: third :: rest =>
    if third.length < last.length then
      let (patience, merged) := mergeRuns before p.patience third second
      ⟨patience, last :: merged :: rest⟩
    else
      let (patience, merged) := mergeRuns before p.patience second last
      ⟨patience, merged :: third :: rest⟩
  | [last, second] =>
    let (patience, merged) := mergeRuns before p.patience second last
    ⟨patience, [merged]⟩
  | _ => p

/-- Runs merged until they are as they should be, at most `fuel` times. -/
def mergeUntil (isDone : Pending α → Bool) : (fuel : Nat) → Pending α → Pending α
  | 0, p => p
  | fuel + 1, p => if isDone p then p else mergeUntil isDone fuel (p.mergeLatest before)

/-- One more run, with the others kept in proportion. -/
def push (p : Pending α) (run : List α) : Pending α :=
  mergeUntil before isBalanced p.runs.length { p with runs := run :: p.runs }

/-- The runs of a list, each of at least `least` elements, pushed one after the other. -/
def pushAll (least : Nat) : (fuel : Nat) → Pending α → List α → Pending α
  | 0, p, _ => p
  | _, p, [] => p
  | fuel + 1, p, xs =>
    let (run, rest) := longRun before least xs
    pushAll least fuel (p.push before run) rest

/-- All runs merged into one. -/
def flatten (p : Pending α) : List α :=
  ((mergeUntil before isSingle p.runs.length p).runs.head?).getD []

end Pending

/-- A list sorted by its runs. -/
def sortRuns (before : α → α → Bool) (xs : List α) : List α :=
  (Pending.pushAll before (leastRun xs.length) xs.length ⟨Merging.worthwhile, []⟩ xs).flatten before

end Marginalia.Sorting
