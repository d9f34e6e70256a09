import Marginalia.Proofs.Snippet.Partition
import Marginalia.Proofs.Snippet.Settling
import Marginalia.Proofs.Source.Scanning
import Marginalia.Snippet.Narration

/-!
# Windows apart

The first line of a window in hand stays where it is while the window grows, because labels are
taken in the order of their spans.  So a window that is not reached by the next label lies above all
windows to come, with a line between.  To be drawn, a window is read from the beginning of its first
line and scanned, and neither adds a line to it.  So the numbers of all lines that are drawn grow
from row to row, and each stands in front of the line of the source with that number.
-/

namespace Marginalia

variable {bytes : List UInt8} {before after : Nat}

/-- Whether there is a line between two windows, the first of which ends in front of it. -/
def Window.Above (v w : Window Int) : Prop :=
  v.contents.line + v.contents.lineCount < w.contents.line

namespace Merge

variable {current : Option (Draft Int)} {labels : List (Label Int)} {m : Merge Int}

/-- The windows that come of labels in the order of their spans lie one above the other, and none
begins above a window in hand that no label begins in front of. -/
theorem Gathers.windows_above (gathers : Gathers bytes before after current labels m)
    (ordered : labels.Pairwise fun a b => a.span.offset ≤ b.span.offset)
    (first : ∀ d, current = some d → ∀ l ∈ labels, d.span.offset ≤ l.span.offset) :
    m.windows.Pairwise Window.Above ∧
      ∀ d, current = some d → ∀ w ∈ m.windows, d.contents.line ≤ w.contents.line := by
  induction gathers with
  | nothing => exact ⟨.nil, by simp⟩
  | last sound finished =>
    refine ⟨List.pairwise_singleton _ _, ?_⟩
    rintro d ⟨⟩ w member
    cases List.mem_singleton.mp member
    have contents_eq := (Draft.of_finish_eq_ok finished).2.2.1
    exact Nat.le_of_eq (by rw [contents_eq])
  | refuse beyond others ih =>
    exact ih (List.pairwise_cons.mp ordered).2 fun d held l member =>
      first d held l (List.mem_cons_of_mem _ member)
  | start read others ih =>
    obtain ⟨least, rest_ordered⟩ := List.pairwise_cons.mp ordered
    obtain ⟨above, _⟩ := ih rest_ordered (by rintro _ ⟨⟩; exact least)
    exact ⟨above, by simp⟩
  | @grow d l c grown u rest m sound read touches union reread others ih =>
    obtain ⟨least, rest_ordered⟩ := List.pairwise_cons.mp ordered
    obtain ⟨u_valid, offset_eq, -⟩ := Span.of_union_eq_ok union
    have d_le := first d rfl l List.mem_cons_self
    have unmoved : u.offset = d.span.offset := by omega
    have u_inside := u_valid.inside (Contents.stop_le_of_read reread)
    have line_eq : grown.line = d.contents.line :=
      Contents.line_eq_of_offset_eq u_inside sound.inside reread sound.read unmoved
    have u_le : ∀ k ∈ rest, u.offset ≤ k.span.offset := fun k member => by
      have := least k member
      omega
    obtain ⟨above, below⟩ := ih rest_ordered (by rintro _ ⟨⟩; exact u_le)
    refine ⟨above, ?_⟩
    rintro _ ⟨⟩ w member
    rw [← line_eq]
    exact below _ rfl w member
  | @part d w l c rest m sound read apart finished others ih =>
    obtain ⟨least, rest_ordered⟩ := List.pairwise_cons.mp ordered
    obtain ⟨above, below⟩ := ih rest_ordered (by rintro _ ⟨⟩; exact least)
    have c_le : ∀ v ∈ m.windows, c.line ≤ v.contents.line := below _ rfl
    have contents_eq := (Draft.of_finish_eq_ok finished).2.2.1
    rw [Contents.reach] at apart
    refine ⟨List.pairwise_cons.mpr ⟨fun v member => ?_, above⟩, ?_⟩
    · have := c_le v member
      rw [Window.Above, contents_eq]
      omega
    · rintro _ ⟨⟩ v member
      rcases List.mem_cons.mp member with rfl | member
      · exact Nat.le_of_eq (by rw [contents_eq])
      · have := c_le v member
        omega

theorem sort_offsets_ascending (labels : List (Label Int)) :
    (Label.sort labels).Pairwise fun a b => a.span.offset ≤ b.span.offset := by
  refine (Label.sort_stablySorted labels).ordered.imp fun {a b} precedes => ?_
  have := (Span.precedes_iff a.span b.span).mp precedes
  omega

/-- Valid labels are gathered into windows one above the other. -/
theorem exists_above (valid : ∀ l ∈ labels, l.span.Valid) (bytes : List UInt8)
    (before after : Nat) :
    ∃ m, ofLabels bytes labels before after = .ok m ∧ m.windows.Pairwise Window.Above ∧
      ∀ w ∈ m.windows, w.MadeOfLabels bytes before after := by
  obtain ⟨m, gathered, gathers⟩ := exists_gathers valid bytes before after
  have above := (gathers.windows_above (sort_offsets_ascending labels) (by simp)).1
  exact ⟨m, gathered, above, gathers.madeOfLabels⟩

end Merge

/-! ## Windows made ready to be drawn -/

namespace Window

/-- A window is made ready without moving its first or its last line. -/
theorem MadeOfLabels.exists_aligned {source : Source} {w : Window Int}
    (made : w.MadeOfLabels source.bytes before after) :
    ∃ c, w.aligned source before after = .ok c ∧ c.Whole source.bytes ∧
      c.line = w.contents.line ∧ c.reach = w.contents.reach := by
  have inside := made.valid.inside (Contents.stop_le_of_read made.read)
  by_cases begins : w.contents.column = 0
  · refine ⟨w.contents, ?_, Contents.whole_of_read inside made.read begins, rfl, rfl⟩
    rw [aligned, if_pos (by simp [Coordinate.Same, begins])]
  · obtain ⟨c, reread, whole, same⟩ := Contents.exists_read_moved_back inside made.read begins
    refine ⟨c, ?_, whole, same⟩
    rw [aligned, if_neg (by simp [Coordinate.Same]; omega)]
    exact reread

end Window

/-! ## Drawn lines -/

namespace Frame

/-- The numbers in front of the source lines of a frame. -/
def numbers (f : Frame Int) : List Nat := f.layout.lines.map (·.line.number)

/-- A frame of lines of its window, in ascending order. -/
structure Draws (bytes : List UInt8) (f : Frame Int) : Prop where
  ascending : f.numbers.Pairwise (· < ·)
  shows : ∀ laid ∈ f.layout.lines, ∃ i, f.window.contents.Touches i ∧ laid.line.Shows bytes i

variable {manner : Manner} {source : Source}

theorem exists_ofWindow {w : Window Int}
    (made : w.MadeOfLabels source.bytes manner.before manner.after) :
    ∃ f, ofWindow manner source w = .ok f ∧ f.window = w ∧ f.Draws source.bytes := by
  obtain ⟨c, aligned, whole, line_eq, reach_eq⟩ := made.exists_aligned
  refine ⟨_, congrArg (Except.map _) aligned, rfl, ?_, ?_⟩
  · have numbered := Line.numbers_scan_ascending c source.size
    simpa [numbers, Layout.ofLines, Function.comp_def] using numbered
  · intro laid member
    obtain ⟨line, scanned, rfl⟩ := List.mem_map.mp member
    obtain ⟨i, ⟨line_le, lt_reach⟩, shows⟩ := Line.scan_shows whole source.size line scanned
    rw [line_eq] at line_le
    have lt_reach : i < c.reach := lt_reach
    rw [reach_eq] at lt_reach
    exact ⟨i, ⟨line_le, lt_reach⟩, shows⟩

/-- Windows are made ready one by one. -/
theorem exists_frames {windows : List (Window Int)}
    (made : ∀ w ∈ windows, w.MadeOfLabels source.bytes manner.before manner.after) :
    ∃ frames, windows.mapM (ofWindow manner source) = .ok frames ∧
      frames.map window = windows ∧ ∀ f ∈ frames, f.Draws source.bytes := by
  induction windows with
  | nil => exact ⟨[], rfl, rfl, by simp⟩
  | cons w rest ih =>
    obtain ⟨f, framed, window_eq, draws⟩ := exists_ofWindow (made w List.mem_cons_self)
    obtain ⟨frames, rest_framed, windows_eq, all_draw⟩ := ih fun v member =>
      made v (List.mem_cons_of_mem _ member)
    refine ⟨f :: frames, ?_, by rw [List.map_cons, window_eq, windows_eq], ?_⟩
    · simp only [List.mapM_cons, framed, rest_framed, bind, Except.bind, pure, Except.pure]
    · simpa using ⟨draws, all_draw⟩

/-- The numbers of the lines of a frame are those of lines of its window. -/
theorem Draws.number_bounds {f : Frame Int} (draws : f.Draws bytes) :
    ∀ n ∈ f.numbers, f.window.contents.line < n ∧ n ≤ f.window.contents.reach := by
  intro n member
  obtain ⟨laid, laid_member, rfl⟩ := List.mem_map.mp member
  obtain ⟨i, ⟨line_le, lt_reach⟩, shows⟩ := draws.shows laid laid_member
  have number_eq := shows.number_eq
  have reach_eq : f.window.contents.reach =
      f.window.contents.line + f.window.contents.lineCount := rfl
  omega

theorem numbers_ascending {frames : List (Frame Int)}
    (above : (frames.map window).Pairwise Window.Above) (draws : ∀ f ∈ frames, f.Draws bytes) :
    (frames.flatMap numbers).Pairwise (· < ·) := by
  rw [List.pairwise_map] at above
  refine List.pairwise_flatMap.mpr ⟨fun f member => (draws f member).ascending, ?_⟩
  refine above.imp_of_mem fun {f g} f_member g_member apart n n_member k k_member => ?_
  have n_le := ((draws f f_member).number_bounds n n_member).2
  have lt_k := ((draws g g_member).number_bounds k k_member).1
  rw [Contents.reach] at n_le
  rw [Window.Above] at apart
  omega

end Frame

section

variable {source : Source} {labels : List (Label Int)} {manner : Manner} {m : Merge Int}
  {frames : List (Frame Int)}
  (gathered : Window.ofSource source labels manner.before manner.after = .ok m)
  (framed : m.windows.mapM (Frame.ofWindow manner source) = .ok frames)

include gathered framed

theorem Snippet.rows_of_frames :
    rows manner source labels =
      .ok (notices manner m.failures ++ frames.flatMap (Frame.rows manner source)) := by
  simp only [rows, gathered, framed, bind, Except.bind, pure, Except.pure]

theorem Narration.lines_of_frames :
    lines manner source labels =
      .ok ((m.failures.map fun f => sentence ["    ", f.label.unreadableNotice]) ++
        frames.flatMap (ofFrame manner source)) := by
  simp only [lines, gathered, framed, bind, Except.bind, pure, Except.pure]

end

namespace Snippet

/-- The windows of valid labels stand one above the other with a line between.  They are always
drawn, and in all that is drawn the numbers of source lines grow and each stands in front of the
line with that number, so that no line is drawn twice. -/
theorem rows_draw_lines_once (source : Source) (labels : List (Label Int))
    (valid : ∀ l ∈ labels, l.span.Valid) :
    (∀ before after : Nat, ∃ m, Merge.ofLabels source.bytes labels before after = .ok m ∧
      m.windows.Pairwise fun v w => v.contents.line + v.contents.lineCount < w.contents.line) ∧
    ∀ manner : Manner, ∃ m frames,
      Window.ofSource source labels manner.before manner.after = .ok m ∧
      m.windows.mapM (Frame.ofWindow manner source) = .ok frames ∧
      rows manner source labels =
        .ok (notices manner m.failures ++ frames.flatMap (Frame.rows manner source)) ∧
      (frames.flatMap Frame.numbers).Pairwise (· < ·) ∧
      ∀ f ∈ frames, ∀ laid ∈ f.layout.lines,
        ∃ i, f.window.contents.Touches i ∧ laid.line.Shows source.bytes i := by
  constructor
  · intro before after
    obtain ⟨m, gathered, above, -⟩ := Merge.exists_above valid source.bytes before after
    exact ⟨m, gathered, above⟩
  · intro manner
    obtain ⟨m, gathered, above, made⟩ :=
      Merge.exists_above (Window.settled_valid valid) source.bytes manner.before manner.after
    obtain ⟨frames, framed, windows_eq, draws⟩ := Frame.exists_frames made
    refine ⟨m, frames, gathered, framed, rows_of_frames gathered framed, ?_, fun f member =>
      (draws f member).shows⟩
    exact Frame.numbers_ascending (windows_eq ▸ above) draws

/-- Labels on the first and the last of four lines, the later one in front. -/
theorem rows_draw_lines_once_far_apart :
    (∀ l ∈ [(⟨⟨6, 1⟩, none, none⟩ : Label Int), ⟨⟨0, 1⟩, none, none⟩], l.span.Valid) ∧
      ∃ m frames,
        Window.ofSource (.ofText "a\nb\nc\nd\n")
          [(⟨⟨6, 1⟩, none, none⟩ : Label Int), ⟨⟨0, 1⟩, none, none⟩] (0 : Nat) 0 = .ok m ∧
        m.windows.mapM (Frame.ofWindow ⟨0, 0, 4, .asciiPlain, .plain⟩ (.ofText "a\nb\nc\nd\n")) =
          .ok frames ∧
        (frames.flatMap Frame.numbers).Pairwise (· < ·) := by
  refine ⟨by decide, ?_⟩
  obtain ⟨m, frames, gathered, framed, -, ascending, -⟩ :=
    (rows_draw_lines_once (.ofText "a\nb\nc\nd\n")
      [⟨⟨6, 1⟩, none, none⟩, ⟨⟨0, 1⟩, none, none⟩] (by decide)).2
      ⟨0, 0, 4, .asciiPlain, .plain⟩
  exact ⟨m, frames, gathered, framed, ascending⟩

end Snippet

end Marginalia
