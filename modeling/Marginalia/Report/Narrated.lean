import Marginalia.Report.Options
import Marginalia.Report.Outline
import Marginalia.Snippet.Narration

/-!
# Narrated reports

The same report as plain sentences, for screen readers and logs.
-/

namespace Marginalia.Narrated

variable {κ : Type} [Coordinate κ]

/-- A word in front of a text, if there is one. -/
def remark (word : String) (text : Option String) : List (List Char) :=
  (text.map fun text => (word ++ text).toList).toList

/-- The message, the severity and the causes. -/
def opening (f : Statement κ) : List (List Char) :=
  [f.message.toList, ("    Diagnostic severity: " ++ f.graveness.name).toList] ++
    (Link.told f.cause).map fun link => ("    Caused by: " ++ link.message).toList

/-- The help, the code and where to read more. -/
def closing (f : Statement κ) : List (List Char) :=
  remark "diagnostic help: " f.help ++ remark "diagnostic code: " f.code ++
    remark "For more details, see:\n" f.url

/-- The lines of what there is to show. -/
def snippet (s : Settings) (entry : Entry κ) : Except (SpanError κ) (List (List Char)) :=
  match entry.shown? with
  | some (source, labels) => Narration.lines s.manner source labels
  | none => .ok []

/-- The lines of an entry, behind an empty line if it is not the first. -/
def entry (s : Settings) (e : Entry κ) : Except (SpanError κ) (List (List Char)) :=
  match e with
  | .told depth f _ => do
    let snippet ← snippet s e
    return (if depth = 0 then [] else [[]]) ++ opening f ++ snippet ++ closing f
  | .omitted _ count =>
    return [[], (String.join [toString count, " related diagnostic(s) omitted (nesting limit ",
      toString s.depthLimit, ")"]).toList]

/-- The lines of a report. -/
def lines (s : Settings) (report : Report κ) : Except (SpanError κ) (List (List Char)) :=
  List.flatten <$> (report.outline s.depthLimit).mapM (entry s)

end Marginalia.Narrated
