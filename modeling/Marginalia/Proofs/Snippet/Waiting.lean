import Marginalia.Proofs.Snippet.Underlines

/-!
# Bars of the labels that wait

The labels below a line are written from the last one to the first one, and in front of the current
one the labels that wait are gone through in the order of their spans.  A bar is drawn only behind
the bar in front of it.  So a label keeps its place unless one that comes before it hangs further
to the right, yet in front of the current label: the bar of a long underline hides the bars of
short ones within its front half.
-/

namespace Marginalia

namespace Underline

variable {κ : Type} {g : Glyphs} {u : Underlined κ} {waiting us : List (Underlined κ)}
  {target cursor column : Nat}

/-- Whether a bar stands in a column in front of the current label: a label that waits hangs there,
and none that comes before the first of these hangs between there and the current label. -/
def Barred (waiting : List (Underlined κ)) (target column : Nat) : Prop :=
  column < target ∧ (∃ u ∈ waiting, u.columns.middle = column) ∧
    ∀ e ∈ waiting.takeWhile (·.columns.middle ≠ column),
      ¬(column < e.columns.middle ∧ e.columns.middle < target)

instance (waiting : List (Underlined κ)) (target column : Nat) :
    Decidable (Barred waiting target column) :=
  inferInstanceAs (Decidable (_ ∧ _ ∧ _))

/-- What is drawn in a column in front of the current label. -/
def barAt (g : Glyphs) (waiting : List (Underlined κ)) (target column : Nat) : Char :=
  if Barred waiting target column then g.vertical else ' '

theorem barred_cons_of_eq (here : u.columns.middle = column) :
    Barred (u :: us) target column ↔ column < target := by
  simp [Barred, here]

theorem barred_cons_of_ne (other : u.columns.middle ≠ column) :
    Barred (u :: us) target column ↔
      ¬(column < u.columns.middle ∧ u.columns.middle < target) ∧ Barred us target column := by
  rw [Barred, List.takeWhile_cons_of_pos (by simpa using other), List.forall_mem_cons,
    List.exists_mem_cons_iff, or_iff_right other, Barred]
  exact ⟨fun ⟨lt, present, clear, rest⟩ => ⟨clear, lt, present, rest⟩,
    fun ⟨clear, lt, present, rest⟩ => ⟨lt, present, clear, rest⟩⟩

theorem barAt_nil : barAt g ([] : List (Underlined κ)) target column = ' ' := by
  simp [barAt, Barred]

/-- A label that is passed over changes nothing in the columns that are left. -/
theorem barAt_cons_of_clear (other : u.columns.middle ≠ column)
    (clear : ¬(column < u.columns.middle ∧ u.columns.middle < target)) :
    barAt g (u :: us) target column = barAt g us target column :=
  if_congr ((barred_cons_of_ne other).trans (and_iff_right clear)) rfl rfl

/-- In front of the bar of the first label no bar is drawn. -/
theorem barAt_cons_of_lt (lt : column < u.columns.middle) (within : u.columns.middle < target) :
    barAt g (u :: us) target column = ' ' :=
  if_neg fun barred => ((barred_cons_of_ne (Nat.ne_of_gt lt)).mp barred).1 ⟨lt, within⟩

theorem barAt_cons_self (within : u.columns.middle < target) :
    barAt g (u :: us) target u.columns.middle = g.vertical :=
  if_pos ((barred_cons_of_eq rfl).mpr within)

/-- From the cursor on, the bars and the blanks between them are drawn column by column. -/
theorem chars_bars_eq (le : cursor ≤ target) (us : List (Underlined κ)) :
    (bars g target cursor us).chars = stretch (barAt g us target) cursor target := by
  induction us generalizing cursor with
  | nil =>
    rw [stretch_eq_replicate fun column _ _ => barAt_nil]
    simp [bars]
  | cons u rest ih =>
    rw [bars]
    split
    · rename_i passed
      rw [ih le]
      exact stretch_congr fun column ge lt =>
        (barAt_cons_of_clear (by omega) (by omega)).symm
    · rename_i drawn
      have blank : stretch (barAt g (u :: rest) target) cursor u.columns.middle =
          List.replicate (u.columns.middle - cursor) ' ' :=
        stretch_eq_replicate fun column _ lt => barAt_cons_of_lt lt (by omega)
      have behind : stretch (barAt g rest target) (u.columns.middle + 1) target =
          stretch (barAt g (u :: rest) target) (u.columns.middle + 1) target :=
        stretch_congr fun column ge lt => (barAt_cons_of_clear (by omega) (by omega)).symm
      have bar : (Segment.mk u.callout.style [.once g.vertical]).chars =
          stretch (barAt g (u :: rest) target) u.columns.middle (u.columns.middle + 1) := by
        rw [stretch_succ, barAt_cons_self (by omega)]
        rfl
      rw [Row.chars_cons, Row.chars_cons, Segment.chars_blank, Int.toNat_sub, ← blank, bar,
        ih (by omega), behind, stretch_append (Nat.le_succ _) (by omega),
        stretch_append (by omega) (by omega)]

/-- The rows of a label, one for each line of its text, begin with those bars and blanks. -/
theorem getElem?_labelRows (waiting : List (Underlined κ)) (u : Underlined κ)
    (text : List (List Char)) (lt : column < u.columns.middle) :
    ∀ r ∈ labelRows g waiting u text,
      r.chars[column]? = some (barAt g waiting u.columns.middle column) := by
  have drawn (rest : Row) : (Row.chars (bars g u.columns.middle 0 waiting ++ rest))[column]? =
      some (barAt g waiting u.columns.middle column) := by
    rw [Row.chars_append, chars_bars_eq (Nat.zero_le _),
      List.getElem?_append_left (by simpa using lt), getElem?_stretch lt]
  intro r member
  rcases List.mem_cons.mp member with rfl | member
  · exact drawn _
  · obtain ⟨line, -, rfl⟩ := List.mem_map.mp member
    exact drawn _

theorem length_labelRows (waiting : List (Underlined κ)) (u : Underlined κ)
    {text : List (List Char)} (nonempty : text ≠ []) :
    (labelRows g waiting u text).length = text.length := by
  cases text with
  | nil => exact absurd rfl nonempty
  | cons first rest => simp [labelRows]

/-- The labels are written from the last one to the first one, each below those that come behind it
and with those in front of it waiting. -/
theorem allLabelRows_eq (waiting us : List (Underlined κ)) :
    ∃ blocks : List (List Row), allLabelRows g waiting us = blocks.reverse.flatten ∧
      blocks.length = (us.filter (·.callout.text.isSome)).length ∧
      ∀ (k : Nat) (c : Underlined κ) (text : List (List Char)),
        (us.filter (·.callout.text.isSome))[k]? = some c → c.callout.text = some text →
          blocks[k]? = some (labelRows g
            (waiting.reverse ++ (us.filter (·.callout.text.isSome)).take k) c text) := by
  induction us generalizing waiting with
  | nil => exact ⟨[], rfl, rfl, by simp⟩
  | cons u rest ih =>
    rw [allLabelRows]
    cases text_eq : u.callout.text with
    | none =>
      rw [List.filter_cons_of_neg (by simp [text_eq])]
      exact ih waiting
    | some text =>
      obtain ⟨blocks, rows_eq, length_eq, each⟩ := ih (u :: waiting)
      rw [List.filter_cons_of_pos (by simp [text_eq])]
      refine ⟨labelRows g waiting.reverse u text :: blocks, ?_, ?_, ?_⟩
      · rw [rows_eq, List.reverse_cons, List.flatten_append, List.flatten_singleton]
      · rw [List.length_cons, List.length_cons, length_eq]
      · intro k c text' found c_text
        cases k with
        | zero =>
          cases found
          cases text_eq.symm.trans c_text
          simp
        | succ k =>
          have block := each k c text' found c_text
          rw [List.reverse_cons, List.append_assoc] at block
          exact block

end Underline

namespace Frame

variable {κ : Type} [Coordinate κ] {m : Manner} {source : Source} {w : Window κ} {f : Frame κ}
  {laid : LaidLine κ}

/-- The callouts with a text of a window whose spans a line contains. -/
def labelled (m : Manner) (f : Frame κ) (line : Line κ) : List (Underlined κ) :=
  (f.contained m line).filter (·.callout.text.isSome)

/-- Below the marks of a drawn line stand the rows of its labels, the last one first.  In each row
of a label there is a bar for a label in front of it exactly if no label before that one hangs
further to the right and still in front of the label of the row; all other columns up to there are
blank. -/
theorem bars_stand_unless_passed (framed : ofWindow m source w = .ok f)
    (drawn : laid ∈ f.layout.lines) :
    ∃ blocks : List (List Row),
      (f.underlineRows m laid.line (f.place m laid)).tail =
        blocks.reverse.flatten.map (f.underlineLead m (f.place m laid) ++ ·) ∧
      blocks.length = (f.labelled m laid.line).length ∧
      ∀ (k : Nat) (c : Underlined κ) (text : List (List Char)),
        (f.labelled m laid.line)[k]? = some c → c.callout.text = some text →
          ∃ block, blocks[k]? = some block ∧ block.length = text.length ∧
            ∀ r ∈ block, ∀ column < c.columns.middle, r.chars[column]? =
              some (if Underline.Barred ((f.labelled m laid.line).take k) c.columns.middle column
                then m.theme.glyphs.vertical else ' ') := by
  obtain ⟨blocks, rows_eq, length_eq, each⟩ :=
    Underline.allLabelRows_eq (g := m.theme.glyphs) [] (f.contained m laid.line)
  have below : (Underline.rows m.theme.glyphs (f.contained m laid.line)).tail =
      blocks.reverse.flatten := by
    by_cases empty : f.contained m laid.line = []
    · rw [← rows_eq, empty]
      rfl
    · rw [Underline.rows_of_ne_nil empty, List.tail_cons, rows_eq]
  refine ⟨blocks, ?_, length_eq, fun k c text found text_eq => ?_⟩
  · rw [← below, ← ofPlaced_place framed drawn, List.map_tail]
    rfl
  · have member := List.mem_of_mem_filter (List.mem_of_getElem? found)
    have nonempty := contained_text_ne_nil f laid.line c member text text_eq
    exact ⟨_, each k _ text found text_eq, Underline.length_labelRows _ _ nonempty,
      fun r r_member column lt => Underline.getElem?_labelRows _ _ _ lt r r_member⟩

/-- Labels on one line: the first one is underlined all along, the second one lies in its front half
and the third one behind its middle. -/
def enclosed : List (Label Int) :=
  [⟨⟨0, 4⟩, some "a", none⟩, ⟨⟨1, 1⟩, some "b", none⟩, ⟨⟨3, 1⟩, some "c", none⟩]

/-- Those labels below their line, where they hang from the columns 2, 1 and 3. -/
def enclosedBelow : List (Underlined Int) :=
  [⟨⟨0, ⟨0, 4⟩, some [['a']], .plain⟩, ⟨0, 4⟩⟩, ⟨⟨1, ⟨1, 1⟩, some [['b']], .plain⟩, ⟨1, 2⟩⟩,
    ⟨⟨2, ⟨3, 1⟩, some [['c']], .plain⟩, ⟨3, 4⟩⟩]

theorem exists_enclosed :
    ∃ merge w f laid,
      Merge.ofLabels (Source.ofText "abcd").bytes enclosed (0 : Nat) 0 = .ok merge ∧
      w ∈ merge.windows ∧
      ofWindow ⟨0, 0, 4, .unicodePlain, .plain⟩ (.ofText "abcd") w = .ok f ∧
      laid ∈ f.layout.lines ∧
      f.labelled ⟨0, 0, 4, .unicodePlain, .plain⟩ laid.line = enclosedBelow := by
  have gathered : Merge.ofLabels (Source.ofText "abcd").bytes enclosed (0 : Nat) 0 =
      .ok ⟨[⟨⟨0, 4⟩, enclosed, ⟨⟨0, 4⟩, some "a", none⟩, 0, 0,
        ⟨[0x61, 0x62, 0x63, 0x64], 0, 4, 0, 0, 1⟩⟩], []⟩ := by
    rw [Merge.ofLabels, Label.sort_eq_mergeSort, List.mergeSort_of_pairwise (by decide)]
    rfl
  exact ⟨_, _, _, _, gathered, List.mem_singleton_self _, rfl, List.mem_singleton_self _,
    by decide +kernel⟩

/-- In front of the third label there is a bar for the first one and none for the second one. -/
theorem bars_stand_unless_passed_enclosed :
    ∃ (w : Window Int) (f : Frame Int) (laid : LaidLine Int),
      ofWindow ⟨0, 0, 4, .unicodePlain, .plain⟩ (.ofText "abcd") w = .ok f ∧
      laid ∈ f.layout.lines ∧
      ∃ blocks : List (List Row), ∃ block, blocks[2]? = some block ∧ block.length = 1 ∧
        ∀ r ∈ block, r.chars[1]? = some ' ' ∧ r.chars[2]? = some '│' := by
  obtain ⟨-, w, f, laid, -, -, framed, drawn, labelled_eq⟩ := exists_enclosed
  obtain ⟨blocks, -, -, each⟩ := bars_stand_unless_passed framed drawn
  rw [labelled_eq] at each
  obtain ⟨block, found, length_eq, begun⟩ := each 2 _ _ rfl rfl
  exact ⟨w, f, laid, framed, drawn, blocks, block, found, length_eq, fun r member =>
    ⟨begun r member 1 (by decide), begun r member 2 (by decide)⟩⟩

/-- It is not so that every label that waits in front of the current one has a bar: that of the
second label is missing beside the third one. -/
theorem not_all_bars_stand :
    ¬∀ (source : Source) (labels : List (Label Int)) (manner : Manner),
      (∀ l ∈ labels, l.span.Valid) → ∀ (merge : Merge Int) (w : Window Int) (f : Frame Int)
        (laid : LaidLine Int),
      Merge.ofLabels source.bytes labels manner.before manner.after = .ok merge →
      w ∈ merge.windows → ofWindow manner source w = .ok f → laid ∈ f.layout.lines →
      ∀ (k : Nat) (c : Underlined Int) (text : List (List Char)),
        (f.labelled manner laid.line)[k]? = some c → c.callout.text = some text →
        ∀ r ∈ Underline.labelRows manner.theme.glyphs ((f.labelled manner laid.line).take k) c text,
        ∀ u ∈ (f.labelled manner laid.line).take k, u.columns.middle < c.columns.middle →
          r.chars[u.columns.middle]? = some manner.theme.glyphs.vertical := by
  intro stand
  obtain ⟨merge, w, f, laid, gathered, member, framed, drawn, labelled_eq⟩ := exists_enclosed
  have barred := stand (.ofText "abcd") enclosed ⟨0, 0, 4, .unicodePlain, .plain⟩ (by decide) merge
    w f laid gathered member framed drawn 2
  rw [labelled_eq] at barred
  have missing := barred _ _ rfl rfl _ List.mem_cons_self _
    (List.mem_cons_of_mem _ List.mem_cons_self) (by decide)
  exact absurd missing (by decide)

end Frame

end Marginalia
