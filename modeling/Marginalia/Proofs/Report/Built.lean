import Marginalia.Proofs.Report.Nesting
import Marginalia.Proofs.Snippet.Tidied

/-!
# Reports of what was built

A report can be made of a diagnostic that was built, and also of one that nobody built, as long as
its cause is a chain already.  Building fills in the severity and tidies the labels, which is what
the handlers would take them for anyway, so both make the same text.
-/

namespace Marginalia

variable {κ : Type}

/-! ## Outlines -/

/-- An entry that tells what was tidied. -/
def Entry.tidied : Entry κ → Entry κ
  | told depth facts source => told depth facts.tidied source
  | omitted depth count => omitted depth count

namespace Report

open Diagnostic (mapAll mapAll_eq_map)

mutual

/-- A tidied tree has the tidied outline. -/
theorem outlineFrom_tidied (limit depth : Nat) (inherited : Option Source) :
    ∀ report : Report κ,
      outlineFrom limit depth inherited (report.map Facts.tidied) =
        (outlineFrom limit depth inherited report).map Entry.tidied
  | .alone _ => rfl
  | .group facts related => by
    have source_eq : facts.tidied.source = facts.source := rfl
    have empty_eq : (mapAll Facts.tidied related).isEmpty = related.isEmpty := by
      rw [mapAll_eq_map, List.isEmpty_map]
    have length_eq : (mapAll Facts.tidied related).length = related.length := by
      rw [mapAll_eq_map, List.length_map]
    rw [Diagnostic.map, outlineFrom, outlineFrom, source_eq, empty_eq, length_eq, List.map_cons]
    refine congrArg (Entry.told depth facts.tidied (facts.source <|> inherited) :: ·) ?_
    split
    · rfl
    · split
      · rfl
      · exact outlineAll_tidied limit (depth + 1) (facts.source <|> inherited) related

theorem outlineAll_tidied (limit depth : Nat) (inherited : Option Source) :
    ∀ related : List (Report κ),
      outlineAll limit depth inherited (mapAll Facts.tidied related) =
        (outlineAll limit depth inherited related).map Entry.tidied
  | [] => rfl
  | report :: rest => by
    rw [mapAll, outlineAll, outlineAll, outlineFrom_tidied limit depth inherited report,
      outlineAll_tidied limit depth inherited rest, List.map_append]

end

end Report

/-! ## Handlers -/

variable [Coordinate κ]

namespace Handler

variable [Coordinate.Comparable κ] (h : Handler)

theorem shown_tidied (source : Source) {labels : List (Label κ)}
    (valid : ∀ l ∈ labels, l.span.Valid) :
    h.shown source (labels.map Label.tidied) = h.shown source labels := by
  cases h with
  | graphical handler =>
    exact congrArg (Except.map (List.map Row.painted))
      (Snippet.rows_tidied handler.settings.manner source valid)
  | narrated settings => exact Narration.lines_tidied settings.manner source valid

theorem snippet_tidied (depth : Nat) {facts : Statement κ} (source : Option Source)
    (valid : ∀ l ∈ facts.allLabels, l.span.Valid) :
    h.snippet (.told depth facts.tidied source) = h.snippet (.told depth facts source) := by
  rw [snippet_eq, snippet_eq, facts.allLabels_tidied]
  cases source with
  | none => rfl
  | some source => exact h.shown_tidied source valid

/-- What is told of a diagnostic with valid labels is told when it is tidied. -/
theorem entry_tidied (depth : Nat) {facts : Statement κ} (source : Option Source)
    (valid : ∀ l ∈ facts.allLabels, l.span.Valid) :
    h.entry (.told depth facts.tidied source) = h.entry (.told depth facts source) := by
  have same := h.snippet_tidied depth source valid
  cases h with
  | graphical handler =>
    have drawn : Graphical.snippet handler.settings (.told depth facts.tidied source) =
        Graphical.snippet handler.settings (.told depth facts source) := same
    rw [entry, entry, Graphical.entry, Graphical.entry, drawn]
    rfl
  | narrated settings =>
    have told : Narrated.snippet settings (.told depth facts.tidied source) =
        Narrated.snippet settings (.told depth facts source) := same
    rw [entry, entry, Narrated.entry, Narrated.entry, told]
    rfl

/-- A report with valid labels makes the same text when it is tidied. -/
theorem text_tidied {report : Report κ} (valid : ∀ l ∈ report.labels, l.span.Valid) :
    h.text (report.map Facts.tidied) = h.text report := by
  have same : ∀ e ∈ report.outline h.settings.depthLimit, h.entry e.tidied = h.entry e := by
    intro e member
    cases e with
    | omitted depth count => rfl
    | told depth facts source =>
      have stated := (Report.outline_tells h.settings.depthLimit report _ member).1
      refine h.entry_tidied depth source fun l l_member => ?_
      exact valid l (List.mem_flatMap.mpr ⟨facts, stated, l_member⟩)
  have entries : (report.outline h.settings.depthLimit).map (h.entry ∘ Entry.tidied) =
      (report.outline h.settings.depthLimit).map h.entry := List.map_congr_left same
  have told := congrArg (List.mapM id) entries
  rw [List.mapM_map, List.mapM_map] at told
  have outline_eq : Report.outline h.settings.depthLimit (report.map Facts.tidied) =
      (report.outline h.settings.depthLimit).map Entry.tidied :=
    Report.outlineFrom_tidied h.settings.depthLimit 0 none report
  rw [text, text, h.lines_eq, h.lines_eq, outline_eq, List.mapM_map]
  exact congrArg (fun told => Except.map (fun lines => (written lines).flatten)
    (List.flatten <$> told)) told

end Handler

/-! ## Building -/

namespace Diagnostic

variable [Coordinate.Comparable κ]

/-- A diagnostic that nobody built: one label claims to be primary, one says that it is not, and the
severity is left open. -/
def unbuilt : Report Number :=
  .group
    { message := "no such name"
      source := some ⟨some "a.txt", none, [0x61, 0x62, 0x0A]⟩
      labels := some [⟨⟨.finite 1, .finite 1⟩, none, some false⟩,
        ⟨⟨.finite 0, .finite 2⟩, some "here", some true⟩]
      cause := [⟨"Error", "gone"⟩] }
    [.alone { message := "see also", labels := some [⟨⟨.finite 3, .finite 0⟩, none, none⟩]
              cause := [] }]

/-- The same with a label in front that begins before the source. -/
def unbuildable : Report Number :=
  .group { message := "see also", labels := some [⟨⟨.finite (-1), .finite 1⟩, none, none⟩]
           cause := [] }
    [unbuilt]

end Diagnostic

end Marginalia
