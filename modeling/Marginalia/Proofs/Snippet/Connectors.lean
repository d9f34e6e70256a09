import Marginalia.Proofs.Layout.Lines
import Marginalia.Proofs.Snippet.Edges
import Marginalia.Proofs.Snippet.Placement

/-!
# Connectors that keep their columns

The column of a connector is counted anew beside each line: it is the number of the connectors of
the labels in front of it there.  Where the lines of each later block lie within those of an earlier
one or apart from them, an earlier block beside one line of a later one is beside all its lines.  So
the same connectors are counted on all of these lines, and none of them begins or ends on a line
that the later block passes.
-/

namespace Marginalia

/-! ## Blocks -/

namespace Span

variable {bytes : List UInt8} {s t : Span Int}

/-- Whether the span has bytes on several lines. -/
def IsBlock (bytes : List UInt8) (s : Span Int) : Prop := s.firstLine bytes < s.lastLine bytes

/-- Whether the lines of a block take in those of another span. -/
def Encloses (bytes : List UInt8) (s t : Span Int) : Prop :=
  s.IsBlock bytes ∧ s.firstLine bytes ≤ t.firstLine bytes ∧ t.lastLine bytes ≤ s.lastLine bytes

instance (bytes : List UInt8) (s t : Span Int) : Decidable (s.Encloses bytes t) :=
  inferInstanceAs (Decidable (_ < _ ∧ _ ∧ _))

/-- Whether two blocks have no line in common or the lines of the second one lie within those of
the first one. -/
def Nests (bytes : List UInt8) (s t : Span Int) : Prop :=
  s.IsBlock bytes → t.IsBlock bytes →
    s.lastLine bytes < t.firstLine bytes ∨ t.lastLine bytes < s.firstLine bytes ∨
      s.firstLine bytes ≤ t.firstLine bytes ∧ t.lastLine bytes ≤ s.lastLine bytes

instance (bytes : List UInt8) (s t : Span Int) : Decidable (s.Nests bytes t) :=
  inferInstanceAs (Decidable (_ < _ → _ < _ → _ ∨ _ ∨ _ ∧ _))

/-- What a span is to the line with an index. -/
def atLine (bytes : List UInt8) (s : Span Int) (index : Nat) : Relation :=
  .atLine (s.firstLine bytes) (s.lastLine bytes) index

/-- Beside a line of a block, the blocks that it is nested in are those that enclose it. -/
theorem Nests.isMultiLine_iff_encloses (nests : s.Nests bytes t) {index : Nat}
    (beside : (t.atLine bytes index).isMultiLine = true) :
    (s.atLine bytes index).isMultiLine = true ↔ s.Encloses bytes t := by
  obtain ⟨block, begun, ended⟩ := Relation.isMultiLine_atLine.mp beside
  rw [atLine, Relation.isMultiLine_atLine]
  constructor
  · rintro ⟨block', begun', ended'⟩
    have apart_or_within := nests block' block
    exact ⟨block', by omega, by omega⟩
  · rintro ⟨block', begun', ended'⟩
    exact ⟨block', by omega, by omega⟩

/-- Beside a block that goes on below, no block ends that it is nested in. -/
theorem Nests.ne_ends (nests : s.Nests bytes t) {index : Nat}
    (related : t.atLine bytes index = .passes ∨ t.atLine bytes index = .starts) :
    s.atLine bytes index ≠ .ends := by
  intro ends
  obtain ⟨block, rfl⟩ := Relation.atLine_eq_ends.mp ends
  obtain ⟨begun, lt_last⟩ :
      t.firstLine bytes ≤ s.lastLine bytes ∧ s.lastLine bytes < t.lastLine bytes := by
    rcases related with passes | starts
    · have between := Relation.atLine_eq_passes.mp passes
      omega
    · have first := Relation.atLine_eq_starts.mp starts
      omega
  have apart_or_within := nests block (Nat.lt_of_le_of_lt begun lt_last)
  omega

/-- Beside one that has begun above, none begins. -/
theorem Nests.ne_starts (nests : s.Nests bytes t) {index : Nat}
    (related : t.atLine bytes index = .passes ∨ t.atLine bytes index = .ends) :
    s.atLine bytes index ≠ .starts := by
  intro starts
  obtain ⟨block, rfl⟩ := Relation.atLine_eq_starts.mp starts
  obtain ⟨first_lt, ended⟩ :
      t.firstLine bytes < s.firstLine bytes ∧ s.firstLine bytes ≤ t.lastLine bytes := by
    rcases related with passes | ends
    · have between := Relation.atLine_eq_passes.mp passes
      omega
    · have last := Relation.atLine_eq_ends.mp ends
      omega
  have apart_or_within := nests block (Nat.lt_of_lt_of_le first_lt ended)
  omega

end Span

/-! ## Rows -/

variable {κ : Type}

/-- Whether a row is drawn with a segment from a column on. -/
def Row.DrawsAt (r : Row) (column : Nat) (s : Segment) : Prop :=
  ∃ front back, r = front ++ s :: back ∧ front.chars.length = column

namespace Gutter

variable {g : Glyphs} {room width waiting depth : Nat} {target : Option Nat}
  {front back : List (Placed κ)} {p : Placed κ}

/-- Beside a line, bars are drawn up to the first arrow. -/
theorem besideLine_append
    (through : ∀ q ∈ front, q.relation ≠ .starts ∧ q.relation ≠ .ends) :
    ∃ bars : Row, besideLine g room depth (front ++ back) =
        bars ++ besideLine g room (depth + front.countP (·.relation.isMultiLine)) back ∧
      bars.chars.length = front.countP (·.relation.isMultiLine) := by
  induction front generalizing depth with
  | nil => exact ⟨[], rfl, rfl⟩
  | cons q front ih =>
    obtain ⟨⟨not_starts, not_ends⟩, through⟩ := List.forall_mem_cons.mp through
    rw [List.cons_append]
    cases related : q.relation with
    | starts => exact absurd related not_starts
    | ends => exact absurd related not_ends
    | passes =>
      obtain ⟨bars, bars_eq, length_eq⟩ := @ih (depth + 1) through
      rw [List.countP_cons_of_pos (by rw [related]; rfl), Nat.add_comm _ 1, ← Nat.add_assoc]
      refine ⟨bar g q.callout :: bars, ?_, ?_⟩
      · simp only [besideLine, related, bars_eq, List.cons_append]
      · rw [Row.chars_cons, List.length_append, length_eq, length_chars_bar]
    | contained | none =>
      rw [List.countP_cons_of_neg (by rw [related]; exact Bool.false_ne_true)]
      simp only [besideLine, related]
      exact ih through

/-- Below a line, every connector in front of the one that bends out takes a column. -/
theorem besideRow_append (absent : ∀ q ∈ front, target ≠ some q.callout.index) :
    ∃ bars : Row, besideRow g room width target waiting depth (front ++ back) =
        bars ++ besideRow g room width target waiting
          (depth + front.countP (·.relation.isMultiLine)) back ∧
      bars.chars.length = front.countP (·.relation.isMultiLine) := by
  induction front generalizing depth with
  | nil => exact ⟨[], rfl, rfl⟩
  | cons q front ih =>
    obtain ⟨other, absent⟩ := List.forall_mem_cons.mp absent
    rw [List.cons_append, besideRow, if_neg other]
    split
    · rename_i connects
      obtain ⟨bars, bars_eq, length_eq⟩ := @ih (depth + 1) absent
      rw [List.countP_cons_of_pos (by exact connects), bars_eq, Nat.add_assoc, Nat.add_comm 1]
      refine ⟨_ :: bars, rfl, ?_⟩
      rw [Row.chars_cons, List.length_append, length_eq, Nat.add_comm]
      split <;> rfl
    · rename_i away
      rw [List.countP_cons_of_neg (by exact away)]
      exact ih absent

/-- What is drawn beside a line for a callout stands behind the bars of those in front of it. -/
theorem line_drawsAt (wide : room ≠ 0) (not_starts : ∀ q ∈ front, q.relation ≠ .starts)
    (not_ends : ∀ q ∈ front, q.relation ≠ .ends) {s : Segment}
    (drawn :
      (besideLine g room (front.countP (·.relation.isMultiLine)) (p :: back)).head? = some s) :
    (line g room (front ++ p :: back)).DrawsAt (front.countP (·.relation.isMultiLine)) s := by
  obtain ⟨bars, bars_eq, length_eq⟩ := @besideLine_append _ g room 0 front (p :: back)
    fun q member => ⟨not_starts q member, not_ends q member⟩
  obtain ⟨rest, drawn⟩ := List.head?_eq_some_iff.mp drawn
  rw [Nat.zero_add, drawn] at bars_eq
  rw [line, if_neg wide, bars_eq]
  exact ⟨bars, rest, rfl, length_eq⟩

/-- The elbow of a label at the end of its span bends out of the column of its connector. -/
theorem row_drawsAt_elbow (wide : room ≠ 0) (connects : p.relation.isMultiLine = true)
    (absent : ∀ q ∈ front, q.callout.index ≠ p.callout.index) :
    (row g room width (some p.callout.index) waiting (front ++ p :: back)).DrawsAt
      (front.countP (·.relation.isMultiLine))
      (elbow g p.callout (room - front.countP (·.relation.isMultiLine) + 2)) := by
  obtain ⟨bars, bars_eq, length_eq⟩ :=
    @besideRow_append _ g room width waiting 0 (some p.callout.index) front (p :: back)
      fun q member same => absent q member (Option.some.inj same).symm
  rw [Nat.zero_add, besideRow, if_pos connects, if_pos rfl] at bars_eq
  rw [row, if_neg wide, bars_eq]
  exact ⟨bars, _, rfl, length_eq⟩

end Gutter

/-! ## The callouts in front of one -/

namespace Callout

variable {labels : List (Label κ)} {l : Label κ} {k : Nat}

/-- The callout of a label stands behind those of the labels in front of it. -/
theorem exists_split (palette : Palette) (index : Nat) (found : labels[k]? = some l) :
    ∃ front c back, ofLabels palette index labels = front ++ c :: back ∧ front.length = k ∧
      front.map span = (labels.take k).map Label.span ∧ c.span = l.span ∧ c.index = index + k ∧
      ∀ q ∈ front, q.index < c.index := by
  induction labels generalizing index k with
  | nil => simp at found
  | cons first rest ih =>
    cases k with
    | zero =>
      cases found
      exact ⟨[], _, _, rfl, rfl, rfl, rfl, rfl, by simp⟩
    | succ k =>
      obtain ⟨front, c, back, split, length_eq, spans_eq, span_eq, index_eq, ahead⟩ :=
        ih (index + 1) found
      refine ⟨_ :: front, c, back, by rw [ofLabels, split, List.cons_append], ?_, ?_, span_eq,
        by omega, List.forall_mem_cons.mpr ⟨?_, ahead⟩⟩
      · rw [List.length_cons, length_eq]
      · rw [List.map_cons, spans_eq, List.take_succ_cons, List.map_cons]
      · dsimp only
        omega

end Callout

namespace Frame

/-- The connector of a callout beside a line keeps to a column: it passes there, it begins and ends
there unless one in front of it does so on the same line, and its label bends out of there. -/
structure KeepsColumn (m : Manner) (f : Frame κ) (front : List (Placed κ)) (p : Placed κ)
    (back : List (Placed κ)) (column : Nat) : Prop where
  depth : p.relation.isMultiLine = true → front.countP (·.relation.isMultiLine) = column
  passes : p.relation = .passes →
    (Gutter.line m.theme.glyphs f.layout.gutter (front ++ p :: back)).DrawsAt column
      (Gutter.bar m.theme.glyphs p.callout)
  starts : p.relation = .starts → (∀ q ∈ front, q.relation ≠ .starts) →
    (Gutter.line m.theme.glyphs f.layout.gutter (front ++ p :: back)).DrawsAt column
      (Gutter.arrow m.theme.glyphs p.callout m.theme.glyphs.topCorner (f.layout.gutter - column))
  ends : p.relation = .ends → (∀ q ∈ front, q.relation ≠ .ends) →
    (Gutter.line m.theme.glyphs f.layout.gutter (front ++ p :: back)).DrawsAt column
      (Gutter.arrow m.theme.glyphs p.callout (Gutter.endCorner m.theme.glyphs p.callout)
        (f.layout.gutter - column))
  elbow : p.relation = .ends →
    (Gutter.row m.theme.glyphs f.layout.gutter (f.layout.gutter + 1) (some p.callout.index)
        p.callout.index (front ++ p :: back)).DrawsAt column
      (Gutter.elbow m.theme.glyphs p.callout (f.layout.gutter - column + 2))

variable {m : Manner} {f : Frame κ} {front back : List (Placed κ)} {p : Placed κ} {column : Nat}

/-- It is enough to count the connectors in front of the callout, and to know that of those none
begins or ends on a line where that of the callout does not. -/
theorem keepsColumn
    (fits : (front ++ p :: back).countP (·.relation.isMultiLine) ≤ f.layout.gutter)
    (absent : ∀ q ∈ front, q.callout.index ≠ p.callout.index)
    (depth : p.relation.isMultiLine = true → front.countP (·.relation.isMultiLine) = column)
    (not_starts : p.relation = .passes ∨ p.relation = .ends → ∀ q ∈ front, q.relation ≠ .starts)
    (not_ends : p.relation = .passes ∨ p.relation = .starts → ∀ q ∈ front, q.relation ≠ .ends) :
    f.KeepsColumn m front p back column := by
  have wide (connects : p.relation.isMultiLine = true) : f.layout.gutter ≠ 0 := by
    have pos : 0 < (front ++ p :: back).countP (·.relation.isMultiLine) :=
      List.countP_pos_iff.mpr ⟨p, List.mem_append_right _ List.mem_cons_self, connects⟩
    omega
  refine ⟨depth, fun passes => ?_, fun starts alone => ?_, fun ends alone => ?_, fun ends => ?_⟩
  · have connects : p.relation.isMultiLine = true := by rw [passes]; rfl
    rw [← depth connects]
    exact Gutter.line_drawsAt (wide connects) (not_starts (.inl passes)) (not_ends (.inl passes))
      (by simp only [Gutter.besideLine, passes, List.head?_cons])
  · have connects : p.relation.isMultiLine = true := by rw [starts]; rfl
    rw [← depth connects]
    exact Gutter.line_drawsAt (wide connects) alone (not_ends (.inr starts))
      (by simp only [Gutter.besideLine, starts, List.head?_cons])
  · have connects : p.relation.isMultiLine = true := by rw [ends]; rfl
    rw [← depth connects]
    exact Gutter.line_drawsAt (wide connects) (not_starts (.inr ends)) alone
      (by simp only [Gutter.besideLine, ends, List.head?_cons])
  · have connects : p.relation.isMultiLine = true := by rw [ends]; rfl
    rw [← depth connects]
    exact Gutter.row_drawsAt_elbow (wide connects) connects absent

section

variable [Coordinate κ] {source : Source} {w : Window κ} {laid : LaidLine κ}

/-- The callout of a label beside a line, behind those of the labels in front of it. -/
theorem exists_place_split (framed : ofWindow m source w = .ok f) (drawn : laid ∈ f.layout.lines)
    {k : Nat} {l : Label κ} (found : w.labels[k]? = some l) :
    ∃ front p back, f.place m laid = front ++ p :: back ∧ front.length = k ∧
      front.map Placed.relation =
        (w.labels.take k).map (fun a => Relation.classify laid.line a.span) ∧
      p.callout.span = l.span ∧ p.relation = Relation.classify laid.line l.span ∧
      ∀ q ∈ front, q.callout.index ≠ p.callout.index := by
  obtain ⟨front, c, back, split, length_eq, spans_eq, span_eq, -, ahead⟩ :=
    Callout.exists_split m.theme.palette 0 found
  have place_eq := place_eq framed drawn
  rw [callouts, window_of_ofWindow framed, split, List.map_append, List.map_cons] at place_eq
  refine ⟨_, _, _, place_eq, by rw [List.length_map, length_eq], ?_, span_eq, by rw [← span_eq], ?_⟩
  · have relations_eq := congrArg (List.map (Relation.classify laid.line)) spans_eq
    rw [List.map_map, List.map_map] at relations_eq
    rw [List.map_map]
    exact relations_eq
  · intro q member
    obtain ⟨c', c'_member, rfl⟩ := List.mem_map.mp member
    exact Nat.ne_of_lt (ahead c' c'_member)

end

section

variable {manner : Manner} {source : Source} {w : Window Int} {f : Frame Int}
  {laid : LaidLine Int}

/-- The lines of a window made ready stand to its labels as the indices of their lines tell. -/
theorem exists_atLine {text : List Char}
    (made : w.MadeOfLabels source.bytes manner.before manner.after)
    (encoded : source.bytes = Utf8.encode text) (unmarked : Utf8.mark ∉ text) :
    ∃ f, ofWindow manner source w = .ok f ∧ ∀ laid ∈ f.layout.lines, ∃ i,
      laid.line.number = i + 1 ∧ ∀ l ∈ w.labels,
        Relation.classify laid.line l.span = l.span.atLine source.bytes i := by
  obtain ⟨c, aligned, whole, covers⟩ := made.exists_aligned_covering
  have runs := whole.runs
  obtain ⟨front, back, rfl, encoded', unmarked'⟩ := whole.exists_unmarked_text encoded unmarked
  refine ⟨_, ofWindow_eq aligned, fun laid member => ?_⟩
  obtain ⟨line, scanned, rfl⟩ := List.mem_map.mp member
  obtain ⟨i, found⟩ := List.mem_iff_getElem?.mp scanned
  obtain ⟨extent, extent_found, spells⟩ := runs.spells_scan encoded' unmarked' found
  have filled := ((Line.chain_scan c source.size).formed line scanned).filled
  have number_eq : line.number = c.line + i + 1 := by
    have counted := (Line.getElem?_place found).1
    omega
  refine ⟨c.line + i, number_eq, fun l l_member => ?_⟩
  have le_stop := made.covers.le_stop l l_member
  have w_stop := Contents.stop_le_of_read made.read
  have inside : l.span.Inside source.bytes :=
    (made.labels_valid l l_member).inside (Int.le_trans le_stop w_stop)
  refine Line.classify_eq_atLine extent_found spells filled inside ?_
  rw [runs.natCast_start]
  exact (covers l l_member).1

/-- The connector of a label keeps to the column of as many blocks as come before the label and
enclose it. -/
theorem exists_keepsColumn (framed : ofWindow manner source w = .ok f)
    (drawn : laid ∈ f.layout.lines) {i : Nat}
    (told : ∀ l ∈ w.labels, Relation.classify laid.line l.span = l.span.atLine source.bytes i)
    (nested : w.labels.Pairwise fun a b => a.span.Nests source.bytes b.span) {k : Nat}
    {l : Label Int} (found : w.labels[k]? = some l) :
    ∃ front p back, f.place manner laid = front ++ p :: back ∧ front.length = k ∧
      p.callout.span = l.span ∧ p.relation = l.span.atLine source.bytes i ∧
      f.KeepsColumn manner front p back
        ((w.labels.take k).countP fun a => a.span.Encloses source.bytes l.span) := by
  obtain ⟨front, p, back, split, length_eq, relations_eq, span_eq, relation_eq, absent⟩ :=
    exists_place_split framed drawn found
  obtain ⟨inside, rfl⟩ := List.getElem?_eq_some_iff.mp found
  have nests : ∀ a ∈ w.labels.take k, a.span.Nests source.bytes w.labels[k].span := by
    rw [← List.take_append_drop k w.labels, List.drop_eq_getElem_cons inside,
      List.pairwise_append] at nested
    exact fun a member => nested.2.2 a member _ List.mem_cons_self
  rw [told _ (List.getElem_mem inside)] at relation_eq
  have told_front : front.map Placed.relation =
      (w.labels.take k).map fun a => a.span.atLine source.bytes i := by
    rw [relations_eq]
    exact List.map_congr_left fun a member => told a (List.mem_of_mem_take member)
  -- what is known of the labels in front is known of the callouts in front
  have relation_of_mem (q : Placed Int) (member : q ∈ front) :
      ∃ a ∈ w.labels.take k, a.span.atLine source.bytes i = q.relation :=
    List.mem_map.mp (told_front ▸ List.mem_map_of_mem member)
  refine ⟨front, p, back, split, length_eq, span_eq, relation_eq, keepsColumn ?_ absent ?_ ?_ ?_⟩
  · rw [← split]
    exact place_fits (roomy_of_ofWindow framed) drawn
  · intro connects
    rw [relation_eq] at connects
    have count_eq : (front.map Placed.relation).countP Relation.isMultiLine =
        front.countP (·.relation.isMultiLine) := List.countP_map
    rw [← count_eq, told_front, List.countP_map]
    refine List.countP_congr fun a member => ?_
    rw [decide_eq_true_iff]
    exact (nests a member).isMultiLine_iff_encloses connects
  · intro related q member starts
    obtain ⟨a, a_member, a_relation⟩ := relation_of_mem q member
    rw [relation_eq] at related
    exact (nests a a_member).ne_starts related (a_relation.trans starts)
  · intro related q member ends
    obtain ⟨a, a_member, a_relation⟩ := relation_of_mem q member
    rw [relation_eq] at related
    exact (nests a a_member).ne_ends related (a_relation.trans ends)

end

end Frame

namespace Snippet

/-- In each window where every later block is nested in the earlier ones or apart from them, the
connector of each label keeps to one column beside all lines.  The column is the number of the
earlier blocks that enclose the label, and its connector starts beside the line of the first byte
of the label, ends beside that of the last one and passes those between. -/
theorem connectors_keep_columns (source : Source) (text : List Char)
    (encoded : source.bytes = Utf8.encode text) (unmarked : Utf8.mark ∉ text)
    (labels : List (Label Int)) (valid : ∀ l ∈ labels, l.span.Valid) (manner : Manner) :
    ∃ m, Merge.ofLabels source.bytes labels manner.before manner.after = .ok m ∧
      ∀ w ∈ m.windows, ∃ f, Frame.ofWindow manner source w = .ok f ∧
        (w.labels.Pairwise (fun a b => a.span.Nests source.bytes b.span) →
          ∀ laid ∈ f.layout.lines, ∃ i, laid.line.number = i + 1 ∧
            ∀ (k : Nat) (l : Label Int), w.labels[k]? = some l →
              ∃ front p back, f.place manner laid = front ++ p :: back ∧ front.length = k ∧
                p.callout.span = l.span ∧ p.relation = l.span.atLine source.bytes i ∧
                f.KeepsColumn manner front p back
                  ((w.labels.take k).countP fun a => a.span.Encloses source.bytes l.span)) := by
  obtain ⟨m, gathered, gathers⟩ :=
    Merge.exists_gathers valid source.bytes manner.before manner.after
  refine ⟨m, gathered, fun w member => ?_⟩
  obtain ⟨f, framed, told⟩ :=
    Frame.exists_atLine (gathers.madeOfLabels w member) encoded unmarked
  refine ⟨f, framed, fun nested laid drawn => ?_⟩
  obtain ⟨i, number_eq, told⟩ := told laid drawn
  exact ⟨i, number_eq, fun k l found =>
    Frame.exists_keepsColumn framed drawn told nested found⟩

/-- Four lines of one letter. -/
def fourLines : List Char := ['a', '\n', 'b', '\n', 'c', '\n', 'd', '\n']

/-- A block on all four lines and one on the two lines in the middle. -/
def innerBlock : List (Label Int) :=
  [⟨⟨0, 7⟩, some "outer", none⟩, ⟨⟨2, 3⟩, some "inner", none⟩]

/-- The connector of the inner block keeps to the second column. -/
theorem connectors_keep_columns_inner :
    (Source.ofText "a\nb\nc\nd\n").bytes = Utf8.encode fourLines ∧ Utf8.mark ∉ fourLines ∧
      (∀ l ∈ innerBlock, l.span.Valid) ∧
      ∃ m w f,
        Merge.ofLabels (Source.ofText "a\nb\nc\nd\n").bytes innerBlock (0 : Nat) 0 = .ok m ∧
        w ∈ m.windows ∧ w.labels = innerBlock ∧
        w.labels.Pairwise
          (fun a b => a.span.Nests (Source.ofText "a\nb\nc\nd\n").bytes b.span) ∧
        Frame.ofWindow ⟨0, 0, 4, .unicodePlain, .plain⟩ (.ofText "a\nb\nc\nd\n") w = .ok f ∧
        ∀ laid ∈ f.layout.lines, ∃ front p back,
          f.place ⟨0, 0, 4, .unicodePlain, .plain⟩ laid = front ++ p :: back ∧
          p.callout.span = ⟨2, 3⟩ ∧
          f.KeepsColumn ⟨0, 0, 4, .unicodePlain, .plain⟩ front p back 1 := by
  refine ⟨by decide, by decide, by decide, ?_⟩
  obtain ⟨m, gathered, frames⟩ :=
    connectors_keep_columns (.ofText "a\nb\nc\nd\n") fourLines (by decide) (by decide)
      innerBlock (by decide) ⟨0, 0, 4, .unicodePlain, .plain⟩
  have merged : Merge.ofLabels (Source.ofText "a\nb\nc\nd\n").bytes innerBlock (0 : Nat) 0 =
      .ok ⟨[⟨⟨0, 7⟩, innerBlock, ⟨⟨0, 7⟩, some "outer", none⟩, 0, 0,
        ⟨(Source.ofText "a\nb\nc\nd\n").bytes, 0, 8, 0, 0, 4⟩⟩], []⟩ := by
    rw [Merge.ofLabels, Label.sort_eq_mergeSort, List.mergeSort_of_pairwise (by decide)]
    rfl
  cases gathered.symm.trans merged
  obtain ⟨f, framed, keeps⟩ := frames _ (List.mem_singleton_self _)
  have nested : innerBlock.Pairwise
      (fun a b => a.span.Nests (Source.ofText "a\nb\nc\nd\n").bytes b.span) := by decide
  refine ⟨_, _, f, gathered, List.mem_singleton_self _, rfl, nested, framed, fun laid drawn => ?_⟩
  obtain ⟨i, -, columns⟩ := keeps nested laid drawn
  obtain ⟨front, p, back, split, -, span_eq, -, kept⟩ := columns 1 _ rfl
  exact ⟨front, p, back, split, span_eq, kept⟩

end Snippet

end Marginalia
