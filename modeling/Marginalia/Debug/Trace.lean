import Marginalia.Debug.Channel
import Marginalia.Report.Handler

/-!
# Traces

What the library has to say on its channels about a piece of work: which window a span was
resolved to, which labels were put together, how wide a gutter became, what was left out.  A
trace follows its work step by step and ends where the work fails.
-/

namespace Marginalia

/-- One thing said on the channel of a part. -/
structure Event where
  part : Part
  point : String
  data : List (String × Value)

namespace Trace

/-- Things said about items one after the other, up to the first item that fails. -/
def untilFailure {α : Type} (succeeds : α → Bool) (events : α → List Event) : List α → List Event
  | [] => []
  | x :: rest => events x ++ if succeeds x then untilFailure succeeds events rest else []

variable {κ : Type} [Coordinate κ]

/-- A place or a length as data. -/
def place (x : κ) : Value := .number (Coordinate.number x)

/-- Said about reading a span. -/
def read (bytes : List UInt8) (s : Span κ) (before : Int) (after : Nat) : List Event :=
  match Contents.read bytes s before after with
  | .ok c =>
    [⟨.resolve, "span.read", [("offset", place s.offset), ("length", place s.length),
      ("window", .list [place c.start, .ofNat c.stop]), ("line", .ofNat c.line),
      ("lineCount", .ofNat c.lineCount)]⟩]
  | .error (.exceeds _ size) =>
    [⟨.resolve, "span.out-of-bounds", [("offset", place s.offset), ("length", place s.length),
      ("size", .ofNat size)]⟩]
  | .error _ => []

/-- Said about locating a position. -/
def locate (bytes : List UInt8) (position : κ) : List Event :=
  read bytes ⟨position, ((0 : Nat) : κ)⟩ 0 0

/-- Said about finishing a window. -/
def finish (bytes : List UInt8) (d : Draft κ) : List Event :=
  locate bytes (Draft.anchorOf d.first d.labels).span.offset

/-- The span of a window as data. -/
def spanData (s : Span κ) : String × Value := ("span", .list [place s.offset, place s.length])

/-- Said about joining a label to a window that it touches. -/
def join (bytes : List UInt8) (before : Int) (after : Nat) (d : Draft κ) (span : Span κ) :
    List Event :=
  read bytes span before after ++
    match Contents.read bytes span before after with
    | .ok c =>
      [⟨.merge, "window.merged", [spanData span,
        ("lines", .list [.ofNat c.line, .ofNat c.lineCount]),
        ("labels", .ofNat (d.labels.length + 1))]⟩]
    | .error _ => [⟨.merge, "window.merge-failed", [spanData span]⟩]

/-- Said about sorted labels with a window in hand. -/
def ofSorted (bytes : List UInt8) (before : Int) (after : Nat) :
    Option (Draft κ) → List (Label κ) → List Event
  | none, [] => []
  | some draft, [] => finish bytes draft
  | current, label :: rest =>
    read bytes label.span before after ++
      match Contents.read bytes label.span before after with
      | .error _ => ofSorted bytes before after current rest
      | .ok contents =>
        let fresh := Draft.ofLabel label contents
        match current with
        | none => ofSorted bytes before after (some fresh) rest
        | some draft =>
          (if draft.touches contents then
            match draft.span.union label.span with
            | .ok span => join bytes before after draft span
            | .error _ => []
          else []) ++
            match draft.join bytes before after label contents with
            | .error _ => []
            | .ok (some grown) => ofSorted bytes before after (some grown) rest
            | .ok none =>
              finish bytes draft ++ ofSorted bytes before after (some fresh) rest

/-- Said about sorting labels into windows. -/
def merge (bytes : List UInt8) (labels : List (Label κ)) (before : Int) (after : Nat) :
    List Event :=
  ofSorted bytes before after none (Label.sort labels) ++
    match Merge.ofLabels bytes labels before after with
    | .ok m =>
      [⟨.merge, "windows", [("windows", .ofNat m.windows.length),
        ("failures", .ofNat m.failures.length)]⟩]
    | .error _ => []

/-- Said about sorting the labels on a source into windows. -/
def windows (source : Source) (labels : List (Label κ)) (before : Int) (after : Nat) : List Event :=
  merge source.bytes (labels.map (Window.settle source.bytes)) before after

/-- Said about reading a window from the beginning of its first line. -/
def aligned (source : Source) (before : Int) (after : Nat) (w : Window κ) : List Event :=
  if Coordinate.Same w.contents.column ((0 : Nat) : κ) then []
  else
    let start := w.span.offset - w.contents.column
    read source.bytes ⟨start, w.span.stop - start⟩ before after

/-- Said about reading windows, one after the other. -/
def allAligned (source : Source) (before : Int) (after : Nat) (windows : List (Window κ)) :
    List Event :=
  untilFailure (fun w => (w.aligned source before after).toBool) (aligned source before after)
    windows

/-- Said about drawing a window. -/
def drawn (m : Manner) (source : Source) (w : Window κ) : List Event :=
  aligned source m.before m.after w ++
    match Frame.ofWindow m source w with
    | .ok f =>
      [⟨.render, "window", [("line", .ofNat f.contents.line),
        ("lines", .ofNat f.layout.lines.length), ("labels", .ofNat w.labels.length),
        ("gutter", .ofNat f.layout.gutter)]⟩]
    | .error _ => []

/-- Said about a label that cannot be read. -/
def unreadable (f : Failure κ) : Event :=
  ⟨.render, "label.unreadable", [("offset", place f.label.span.offset),
    ("length", place f.label.span.length)]⟩

/-- Said about drawing the labels on a source. -/
def snippet (m : Manner) (source : Source) (labels : List (Label κ)) : List Event :=
  windows source labels m.before m.after ++
    match Window.ofSource source labels m.before m.after with
    | .ok merge =>
      merge.failures.map unreadable ++
        untilFailure (fun w => (Frame.ofWindow m source w).toBool) (drawn m source) merge.windows
    | .error _ => []

/-- Said about narrating the labels on a source. -/
def narration (m : Manner) (source : Source) (labels : List (Label κ)) : List Event :=
  windows source labels m.before m.after ++
    match Window.ofSource source labels m.before m.after with
    | .ok merge => allAligned source m.before m.after merge.windows
    | .error _ => []

/-- Said about the labels of an entry: how they are shown, or that there is no source. -/
def labels (shown : Source → List (Label κ) → List Event) : Entry κ → List Event
  | .told _ facts source =>
    if facts.allLabels.isEmpty then []
    else
      match source with
      | some source => shown source facts.allLabels
      | none =>
        [⟨.report, "labels.no-source", [("labels", .ofNat facts.allLabels.length)]⟩]
  | .omitted _ _ => []

/-- Said about drawing an entry. -/
def graphicalEntry (s : Settings) (e : Entry κ) : List Event :=
  (match e with
    | .told depth facts source =>
      [⟨.report, "render", [("depth", .ofNat depth), ("labels", .ofNat facts.allLabels.length),
        ("hasSource", .bool source.isSome)]⟩]
    | .omitted depth count =>
      [⟨.report, "related.depth-limit", [("depth", .ofNat depth), ("skipped", .ofNat count)]⟩]) ++
    labels (snippet s.manner) e

/-- Said about making the text of a report. -/
def report (h : Handler) (report : Report κ) : List Event :=
  match h with
  | .graphical handler =>
    let s := handler.settings
    untilFailure (fun e => (Graphical.entry s e).toBool) (graphicalEntry s)
      (report.outline s.depthLimit)
  | .narrated s =>
    untilFailure (fun e => (Narrated.entry s e).toBool) (labels (narration s.manner))
      (report.outline s.depthLimit)

end Trace

namespace Channels

/-- What is heard of an event. -/
def hear (c : Channels) (e : Event) : Option String :=
  (c.ofPart e.part).send c.format e.point (some e.data)

end Channels

end Marginalia
