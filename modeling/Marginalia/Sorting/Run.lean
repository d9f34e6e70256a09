/-!
# Runs

A list that is to be sorted is first cut into runs, pieces that are in order already.  A run that
is found falling is turned around, and a short one is made longer by putting in the elements
behind it one by one, each at a place found by halving.

What comes before what is given by a comparison of which nothing is assumed.  If it is no order,
the result depends on which pairs are compared, so every comparison here has its place.
-/

namespace Marginalia.Sorting

variable {α : Type} (before : α → α → Bool)

/-- The place of an element in a row, looked for from `low` up to `high`: behind the middle unless
the element comes before the one there. -/
def placeBetween (x : α) (row : List α) (low high : Nat) : Nat :=
  if low < high then
    let middle := (low + high) / 2
    match row[middle]? with
    | none => low
    | some other =>
      if before x other then placeBetween x row low middle
      else placeBetween x row (middle + 1) high
  else low
termination_by high - low

/-- A row with one more element. -/
def insertHalving (row : List α) (x : α) : List α :=
  let place := placeBetween before x row 0 row.length
  row.take place ++ x :: row.drop place

/-- The elements that follow on `last` without coming before the one in front, and the rest. -/
def rising (last : α) : List α → List α × List α
  | [] => ([], [])
  | x :: rest =>
    if before x last then ([], x :: rest)
    else
      let (run, others) := rising x rest
      (x :: run, others)

/-- The elements that follow on `last` and come before the one in front, and the rest. -/
def falling (last : α) : List α → List α × List α
  | [] => ([], [])
  | x :: rest =>
    if before x last then
      let (run, others) := falling x rest
      (x :: run, others)
    else ([], x :: rest)

/-- The run that a list begins with, in order, and the rest. -/
def firstRun : List α → List α × List α
  | first :: second :: rest =>
    if before second first then
      let (run, others) := falling before second rest
      ((first :: second :: run).reverse, others)
    else
      let (run, others) := rising before second rest
      (first :: second :: run, others)
  | few => (few, [])

/-- A first run of at least `least` elements, if there are that many, and the rest. -/
def longRun (least : Nat) (xs : List α) : List α × List α :=
  let (run, rest) := firstRun before xs
  let missing := least - run.length
  ((rest.take missing).foldl (insertHalving before) run, rest.drop missing)

/-- Lists of fewer elements are one run. -/
def longestRun : Nat := 64

/-- The length halved until it is that of one run, rounded up if any half was rounded down. -/
def leastFrom (odd length : Nat) : Nat :=
  if length < longestRun then length + odd
  else leastFrom (max odd (length % 2)) (length / 2)
termination_by length
decreasing_by
  rename_i h
  simp only [longestRun] at h
  omega

/-- The least length of the runs of a list, so that their number is close to a power of two. -/
def leastRun (length : Nat) : Nat := leastFrom 0 length

end Marginalia.Sorting
