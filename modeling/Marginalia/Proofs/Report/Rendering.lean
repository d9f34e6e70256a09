import Marginalia.Proofs.Snippet.Drawable
import Marginalia.Proofs.Snippet.Separation
import Marginalia.Report.Graphical
import Marginalia.Report.Narrated

/-!
# Rendering never fails

With options that can be used and labels that are valid, both handlers make their snippets: every
union of spans is valid, everything that is read lies within the source, and no count is below
zero.  A label that the source does not reach is told about in a notice and touches nothing else.
-/

namespace Marginalia

/-! ## Options that can be used -/

namespace Options

theorem le_of_count_eq_ok {option : String} {least n : Nat} {value : Number}
    (counted : count option least value = .ok n) : least ≤ n := by
  unfold count at counted
  split at counted
  · split at counted
    · rename_i enough
      cases counted
      exact enough
    · cases counted
  · cases counted

theorem tab_pos {o : Options} {settings : Settings} (resolved : o.resolve = .ok settings) :
    0 < settings.manner.tab := by
  obtain ⟨before, -, resolved⟩ := of_bind_eq_ok resolved
  obtain ⟨after, -, resolved⟩ := of_bind_eq_ok resolved
  obtain ⟨width, -, resolved⟩ := of_bind_eq_ok resolved
  obtain ⟨tab, counted, resolved⟩ := of_bind_eq_ok resolved
  obtain ⟨depth, -, resolved⟩ := of_bind_eq_ok resolved
  cases resolved
  exact le_of_count_eq_ok counted

end Options

theorem Text.tabStop_pos {tab : Nat} (positive : 0 < tab) (column : Nat) :
    0 < tabStop tab column :=
  Nat.sub_pos_of_lt (Nat.mod_lt column positive)

/-! ## Frames of windows -/

namespace Frame

variable {manner : Manner} {source : Source}

theorem roomy_of_frames {windows : List (Window Int)} {frames : List (Frame Int)}
    (framed : windows.mapM (ofWindow manner source) = .ok frames) :
    ∀ f ∈ frames, f.layout.Roomy := by
  intro f member
  obtain ⟨w, -, made⟩ := exists_of_mem_mapM framed member
  exact roomy_of_ofWindow made

end Frame

namespace Snippet

/-! ## What both handlers make -/

/-- All that becomes of labels on a source on the way to the snippets of both handlers. -/
structure Rendered (settings : Settings) (source : Source) (labels : List (Label Int))
    (m : Merge Int) (frames : List (Frame Int)) : Prop where
  gathered : Window.ofSource source labels settings.manner.before settings.manner.after = .ok m
  /-- Each step goes well: unions are valid and can be read, and anchors are located. -/
  gathers : Merge.Gathers source.bytes settings.manner.before settings.manner.after none
    (Label.sort (labels.map (Window.settle source.bytes))) m
  framed : m.windows.mapM (Frame.ofWindow settings.manner source) = .ok frames
  /-- The notices are about the labels that the source does not reach. -/
  refused : m.failures.map Failure.label =
    (Label.sort (labels.map (Window.settle source.bytes))).filter (·.isBeyond source.bytes)
  /-- All others are in the frames, and only those. -/
  shown : frames.flatMap (·.window.labels) =
    (Label.sort (labels.map (Window.settle source.bytes))).filter (!·.isBeyond source.bytes)
  graphical : ∀ entry : Entry Int, entry.shown? = some (source, labels) →
    Graphical.snippet settings entry =
      .ok ((notices settings.manner m.failures ++
        frames.flatMap (Frame.rows settings.manner source)).map Row.painted)
  narrated : ∀ entry : Entry Int, entry.shown? = some (source, labels) →
    Narrated.snippet settings entry =
      .ok ((m.failures.map fun f => Narration.sentence ["    ", f.label.unreadableNotice]) ++
        frames.flatMap (Narration.ofFrame settings.manner source))
  drawable : ∀ row ∈ notices settings.manner m.failures ++
    frames.flatMap (Frame.rows settings.manner source), row.Drawable
  tabs : ∀ column, 0 < Text.tabStop settings.manner.tab column

/-- With options that can be used, both handlers make the snippets of valid labels on whatever
bytes. -/
theorem handlers_draw_snippets {options : Options} {settings : Settings}
    (resolved : options.resolve = .ok settings) (source : Source) (labels : List (Label Int))
    (valid : ∀ l ∈ labels, l.span.Valid) :
    ∃ m frames, Rendered settings source labels m frames := by
  obtain ⟨m, gathered, gathers⟩ := Merge.exists_gathers (Window.settled_valid valid) source.bytes
    settings.manner.before settings.manner.after
  have gathered : Window.ofSource source labels settings.manner.before settings.manner.after =
    .ok m := gathered
  obtain ⟨frames, framed, windows_eq, -⟩ := Frame.exists_frames gathers.madeOfLabels
  have roomy := Frame.roomy_of_frames framed
  refine ⟨m, frames, gathered, gathers, framed, ?_, ?_, ?_, ?_, ?_,
    Text.tabStop_pos (Options.tab_pos resolved)⟩
  · rw [gathers.failures_eq, List.map_map]
    simp [Function.comp_def]
  · rw [← List.flatMap_map, windows_eq, gathers.labels_eq]
    rfl
  · intro entry shown
    simp only [Graphical.snippet, shown, rows_of_frames gathered framed, Except.map]
  · intro entry shown
    simp only [Narrated.snippet, shown, Narration.lines_of_frames gathered framed]
  · intro row member
    rcases List.mem_append.mp member with member | member
    · exact notices_drawable _ _ row member
    · obtain ⟨f, f_member, row_member⟩ := List.mem_flatMap.mp member
      exact Frame.rows_drawable (roomy f f_member) source row row_member

/-- The standard options, and labels within, at the end of and behind bytes that are no text. -/
theorem handlers_draw_snippets_malformed :
    ∃ settings, ({} : Options).resolve = .ok settings ∧
      (∀ l ∈ [(⟨⟨0, 2⟩, none, none⟩ : Label Int), ⟨⟨3, 0⟩, none, none⟩, ⟨⟨1, 9⟩, none, none⟩],
        l.span.Valid) ∧
      ∃ m frames, Rendered settings ⟨none, none, [0xFF, 0x61, 0x0A]⟩
        [(⟨⟨0, 2⟩, none, none⟩ : Label Int), ⟨⟨3, 0⟩, none, none⟩, ⟨⟨1, 9⟩, none, none⟩] m
        frames := by
  cases resolved : ({} : Options).resolve with
  | error e =>
    have usable : ({} : Options).resolve.isOk = true := by decide +kernel
    rw [resolved] at usable
    cases usable
  | ok settings =>
    exact ⟨settings, rfl, by decide, handlers_draw_snippets resolved _ _ (by decide)⟩

end Snippet

end Marginalia
