import Marginalia.Sorting.Run

/-!
# Merging runs

Two neighbouring runs become one.  One of them, the shorter, is held while the other is put in
order with it, from the front or from the back.  The runs are compared element by element until
one of them has won several times in a row.  From then on the elements that win next are looked
for by leaps, for as long as that pays.
-/

namespace Marginalia.Sorting

variable {α : Type}

/-- The number of winners that a list begins with, when it is known to lie between `low` and
`high`.  From the back, the middle is taken as seen from there. -/
def halve (fromBack : Bool) (wins : α → Bool) (xs : List α) (low high : Nat) : Nat :=
  if low < high then
    let half := (high - low) / 2
    let middle := if fromBack then high - 1 - half else low + half
    match xs[middle]? with
    | none => low
    | some x =>
      if wins x then halve fromBack wins xs (middle + 1) high
      else halve fromBack wins xs low middle
  else low
termination_by high - low
decreasing_by all_goals grind

/-- Bounds for the number of winners: the place behind the last winner met by leaps that double,
and the place of the first loser. -/
def leap (wins : α → Bool) (xs : List α) (last probe : Nat) : Nat × Nat :=
  if h : probe < xs.length then
    if wins xs[probe] then leap wins xs probe (2 * probe + 1) else (last + 1, probe)
  else (last + 1, xs.length)
termination_by xs.length - probe

/-- The number of winners that a list begins with, as far as leaps and halving tell. -/
def winners (fromBack : Bool) (wins : α → Bool) : List α → Nat
  | [] => 0
  | x :: rest =>
    if wins x then
      let (low, high) := leap wins (x :: rest) 0 1
      halve fromBack wins (x :: rest) low high
    else 0

/-- Two runs that are being merged. -/
structure Merging (α : Type) where
  /-- What is merged already, the latest first. -/
  placed : List α
  /-- What is left of the run that is held. -/
  held : List α
  /-- What is left of the other run. -/
  other : List α

namespace Merging

/-- Whether no comparison is left to make: the last element held goes behind all others. -/
def isOver (m : Merging α) : Bool := m.other.isEmpty || m.held.length ≤ 1

/-- The merged run when no comparison is left. -/
def merged (m : Merging α) : List α := m.placed.reverse ++ (m.other ++ m.held)

/-- The next element of the other run is placed. -/
def takeOther (m : Merging α) : Merging α :=
  match m.isOver, m.other with
  | false, x :: rest => { m with placed := x :: m.placed, other := rest }
  | _, _ => m

/-- The next element held is placed. -/
def takeHeld (m : Merging α) : Merging α :=
  match m.isOver, m.held with
  | false, x :: rest => { m with placed := x :: m.placed, held := rest }
  | _, _ => m

variable (first : α → α → Bool)

/-- The elements held that come before the other run are placed, and counted. -/
def leapHeld (fromBack : Bool) (m : Merging α) : Nat × Merging α :=
  match m.isOver, m.other with
  | false, next :: _ =>
    let count := winners fromBack (fun x => !first next x) m.held
    (count, { m with placed := (m.held.take count).reverse ++ m.placed, held := m.held.drop count })
  | _, _ => (0, m)

/-- The elements of the other run that come before those held are placed, and counted. -/
def leapOther (fromBack : Bool) (m : Merging α) : Nat × Merging α :=
  match m.isOver, m.held with
  | false, next :: _ =>
    let count := winners fromBack (fun x => first x next) m.other
    (count, { m with placed := (m.other.take count).reverse ++ m.placed, other := m.other.drop count })
  | _, _ => (0, m)

/-- Elements are placed one by one until one run has won `patience` times in a row.  An element
of the other run wins if it is `first` to the one held. -/
def alternate (patience heldWins otherWins : Nat) (placed : List α) :
    (held other : List α) → Merging α
  | x :: held, y :: other =>
    if held.isEmpty ∨ patience ≤ max heldWins otherWins then ⟨placed, x :: held, y :: other⟩
    else if first y x then alternate patience 0 (otherWins + 1) (y :: placed) (x :: held) other
    else alternate patience (heldWins + 1) 0 (x :: placed) held (y :: other)
  | held, other => ⟨placed, held, other⟩
termination_by held other => held.length + other.length

/-- Both runs leap once, the one at the front first, with the longer of the two leaps. -/
def bothLeap (fromBack : Bool) (m : Merging α) : Nat × Merging α :=
  if fromBack then
    let (otherCount, m) := m.leapOther first fromBack
    let (heldCount, m) := m.takeHeld.leapHeld first fromBack
    (max heldCount otherCount, m.takeOther)
  else
    let (heldCount, m) := m.leapHeld first fromBack
    let (otherCount, m) := m.takeOther.leapOther first fromBack
    (max heldCount otherCount, m.takeHeld)

/-- Leaps of so many elements pay. -/
def worthwhile : Nat := 7

/-- The runs leap for as long as it pays, and the patience changes: it falls with every leap and
rises when leaping ends. -/
def leapOn (fromBack : Bool) : (fuel patience : Nat) → Merging α → Nat × Merging α
  | 0, patience, m => (patience, m)
  | fuel + 1, patience, m =>
    let patience := max 1 (patience - 1)
    let (count, m) := m.bothLeap first fromBack
    if m.isOver then (patience, m)
    else if worthwhile ≤ count then leapOn fromBack fuel patience m
    else (patience + 1, m)

/-- The runs are merged to the end, first one by one and then by leaps, over and over. -/
def finish (fromBack : Bool) : (fuel patience : Nat) → Merging α → Nat × List α
  | 0, patience, m => (patience, m.merged)
  | fuel + 1, patience, m =>
    let m := alternate first patience 0 0 m.placed m.held m.other
    if m.isOver then (patience, m.merged)
    else
      let (patience, m) := m.leapOn first fromBack (m.held.length + m.other.length) (patience + 1)
      finish fromBack fuel patience m

end Merging

variable (before : α → α → Bool)

/-- Two runs merged from the front, the first one held. -/
def mergeForward (patience : Nat) (a b : List α) : Nat × List α :=
  Merging.finish before false (a.length + b.length) patience (Merging.takeOther ⟨[], a, b⟩)

/-- Two runs merged from the back, the second one held. -/
def mergeBackward (patience : Nat) (a b : List α) : Nat × List α :=
  let (patience, merged) :=
    Merging.finish (fun x y => before y x) true (a.length + b.length) patience
      (Merging.takeOther ⟨[], b.reverse, a.reverse⟩)
  (patience, merged.reverse)

/-- Two neighbouring runs as one.  What the first begins with and the second ends with may be in
its place already. -/
def mergeRuns (patience : Nat) (a b : List α) : Nat × List α :=
  match b, (a.drop (lead b)).getLast? with
  | _ :: _, some last =>
    let front := a.take (lead b)
    let a := a.drop (lead b)
    let rest := winners true (fun x => !before x last) b.reverse
    let back := b.drop (b.length - rest)
    let b := b.take (b.length - rest)
    if b.isEmpty then (patience, front ++ a ++ back)
    else
      let (patience, merged) :=
        if a.length ≤ b.length then mergeForward before patience a b
        else mergeBackward before patience a b
      (patience, front ++ merged ++ back)
  | b, _ => (patience, a ++ b)
where
  /-- The elements of the first run that are in their place. -/
  lead : List α → Nat
    | [] => 0
    | next :: _ => winners false (fun x => !before next x) a

end Marginalia.Sorting
