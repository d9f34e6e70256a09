import Marginalia.Proofs.Snippet.Partition

/-!
# Lines shown for a label

A window shows the lines that its labels would have shown alone, with one exception.  A point at
the end of a window has no byte in it, so it does not move the last byte of the window.  Where it
stands behind a line feed its line is the next one, and that is in the window only if the context
happens to take in all lines with bytes from there on.
-/

namespace Marginalia

open Extent (table lineAt fullLines lineFeed)

/-- A window that lacks lines of one of its labels: the label is a point at the end of the window,
which is no point, and behind a line feed.  From its line on there is no line with bytes, or there
are more of them than lines of context. -/
structure Window.Hides (bytes : List UInt8) (after : Nat) (w : Window Int) (l : Label Int) :
    Prop where
  isPoint : l.span.isPoint = true
  atEnd : l.span.offset = w.span.stop
  spans : w.span.isPoint = false
  behind_feed : bytes[l.span.offset.toNat - 1]? = some lineFeed
  out_of_context :
    ((table bytes).drop (lineAt bytes l.span.offset.toNat)).countP (!·.isEmpty) = 0 ∨
      after < ((table bytes).drop (lineAt bytes l.span.offset.toNat)).countP (!·.isEmpty)

variable {bytes : List UInt8} {before after : Nat}

namespace Contents

theorem lineCount_pos_of_read {s : Span Int} {c : Contents Int} (inside : s.Inside bytes)
    (read : Contents.read bytes s before after = .ok c) : 0 < c.lineCount := by
  obtain ⟨first, last, dictates⟩ := dictates_of_read inside read
  rw [dictates.lineCount_eq]
  exact Nat.succ_pos _

/-- Lines that end no later than those of another window, and begin no earlier. -/
theorem touches_imp_iff {c d : Contents Int} (nonempty : 0 < c.lineCount) (le : d.line ≤ c.line) :
    (∀ i, c.Touches i → d.Touches i) ↔ c.reach ≤ d.reach := by
  unfold Touches reach
  constructor
  · intro shown
    have := shown (c.line + c.lineCount - 1) (by omega)
    omega
  · intro reached i touched
    omega

/-- The line behind the last one of a window moves by one if its last byte moves behind a line
feed, but for lines of context that are not there. -/
theorem bottom_succ_le_iff (last : Nat) :
    bottom bytes after (last + 1) ≤ bottom bytes after last ↔
      ¬(fullLines bytes - (last + 1) = 0 ∨ after < fullLines bytes - (last + 1)) := by
  rw [bottom_eq, bottom_eq]
  omega

/-- Where the last byte of a window moves on by one, the window ends later only behind a line feed,
and there only if there are no lines with bytes to come or more of them than lines of context. -/
theorem bottom_lineAt_succ_le_iff (position : Nat) :
    bottom bytes after (lineAt bytes (position + 1)) ≤ bottom bytes after (lineAt bytes position) ↔
      ¬(bytes[position]? = some lineFeed ∧
        (((table bytes).drop (lineAt bytes (position + 1))).countP (!·.isEmpty) = 0 ∨
          after < ((table bytes).drop (lineAt bytes (position + 1))).countP (!·.isEmpty))) := by
  rw [Extent.countP_drop_table, Extent.lineAt_succ]
  by_cases feed : bytes[position]? = some lineFeed
  · rw [if_pos feed, bottom_succ_le_iff]
    exact not_congr (iff_and_self.mpr fun _ => feed)
  · rw [if_neg feed]
    exact iff_of_true (Nat.le_refl _) fun ended => feed ended.1

end Contents

namespace Window

variable {w : Window Int} {l : Label Int}

/-- The last byte of a label is no later than that of its window, unless the label is a point at
the end of a window that is none. -/
theorem lastByte_le (covers : w.span.Covers w.labels) (member : l ∈ w.labels)
    (length : 0 ≤ l.span.length)
    (fits : ¬(l.span.isPoint = true ∧ l.span.offset = w.span.stop ∧ w.span.isPoint = false)) :
    Contents.lastByte l.span ≤ Contents.lastByte w.span := by
  have offset_le := covers.offset_le l member
  have le_stop := covers.le_stop l member
  have stop_eq := Span.stop_eq l.span
  have stop_eq' := Span.stop_eq w.span
  rw [Span.isPoint_iff, Bool.eq_false_iff, Ne, Span.isPoint_iff] at fits
  rw [Contents.lastByte_eq, Contents.lastByte_eq]
  split <;> split <;> omega

/-- A point at the end of a window that is none is one byte behind the last byte of the window. -/
theorem toNat_lastByte_of_atEnd (inside : w.span.Inside bytes)
    (atEnd : l.span.offset = w.span.stop) (spans : w.span.isPoint = false) :
    l.span.offset.toNat = (Contents.lastByte w.span).toNat + 1 := by
  have offset := inside.offset
  have length := inside.length
  have stop_eq := Span.stop_eq w.span
  rw [Bool.eq_false_iff, Ne, Span.isPoint_iff] at spans
  rw [Contents.lastByte_eq, if_pos (by omega)]
  omega

/-- A window shows the lines of one of its labels exactly if it does not hide them. -/
theorem MadeOfLabels.touches_iff (made : w.MadeOfLabels bytes before after) (member : l ∈ w.labels)
    {c : Contents Int} (read : Contents.read bytes l.span before after = .ok c) :
    (∀ i, c.Touches i → w.contents.Touches i) ↔ ¬w.Hides bytes after l := by
  have valid := made.labels_valid l member
  have w_inside := made.valid.inside (Contents.stop_le_of_read made.read)
  have l_inside := valid.inside (Contents.stop_le_of_read read)
  obtain ⟨line_eq, reach_eq⟩ := Contents.line_reach_of_read l_inside read
  obtain ⟨w_line_eq, w_reach_eq⟩ := Contents.line_reach_of_read w_inside made.read
  have offset_le := made.covers.offset_le l member
  have first_le : lineAt bytes w.span.offset.toNat ≤ lineAt bytes l.span.offset.toNat :=
    Extent.lineAt_mono (Int.toNat_le_toNat offset_le)
  rw [Contents.touches_imp_iff (Contents.lineCount_pos_of_read l_inside read) (by omega),
    reach_eq, w_reach_eq, Nat.add_le_add_iff_right]
  by_cases fits : l.span.isPoint = true ∧ l.span.offset = w.span.stop ∧ w.span.isPoint = false
  · obtain ⟨point, atEnd, spans⟩ := fits
    have last_eq := toNat_lastByte_of_atEnd w_inside atEnd spans
    have lastByte_eq : Contents.lastByte l.span = l.span.offset := by
      have length_eq := (Span.isPoint_iff _).mp point
      rw [Contents.lastByte_eq, if_neg (by omega)]
    have behind_eq : l.span.offset.toNat - 1 = (Contents.lastByte w.span).toNat := by omega
    rw [lastByte_eq, last_eq, Contents.bottom_lineAt_succ_le_iff, ← last_eq, ← behind_eq]
    refine not_congr ⟨fun ⟨feed, out⟩ => ⟨point, atEnd, spans, feed, out⟩, fun hides => ?_⟩
    exact ⟨hides.behind_feed, hides.out_of_context⟩
  · refine iff_of_true (Contents.bottom_mono (Extent.lineAt_mono (Int.toNat_le_toNat ?_))) ?_
    · exact lastByte_le made.covers member l_inside.length fits
    · exact fun hides => fits ⟨hides.isPoint, hides.atEnd, hides.spans⟩

/-- Of the lines that a label would have been shown with alone, its window shows all exactly if it
does not hide the label, whatever labels there are and however much context. -/
theorem touches_iff_not_hides (bytes : List UInt8) (labels : List (Label Int))
    (before after : Nat) (valid : ∀ l ∈ labels, l.span.Valid) :
    ∃ m, Merge.ofLabels bytes labels before after = .ok m ∧
      ∀ w ∈ m.windows, ∀ l ∈ w.labels, ∃ c, Contents.read bytes l.span before after = .ok c ∧
        ((∀ i, c.Touches i → w.contents.Touches i) ↔ ¬w.Hides bytes after l) := by
  obtain ⟨m, gathered, gathers⟩ := Merge.exists_gathers valid bytes before after
  refine ⟨m, gathered, fun w w_member l member => ?_⟩
  have made := gathers.madeOfLabels w w_member
  have stop_le := Int.le_trans (made.covers.le_stop l member)
    (Contents.stop_le_of_read made.read)
  obtain ⟨c, read⟩ :=
    Contents.exists_read ((made.labels_valid l member).inside stop_le) before after
  exact ⟨c, read, made.touches_iff member read⟩

/-- A point on the second of two lines, next to a label that ends with the first one. -/
theorem touches_iff_not_hides_behind_line :
    (∀ l ∈ [(⟨⟨0, 3⟩, none, none⟩ : Label Int), ⟨⟨3, 0⟩, none, none⟩], l.span.Valid) ∧
      ∃ m, Merge.ofLabels [0x61, 0x62, 0x0A, 0x63, 0x64, 0x0A]
          [(⟨⟨0, 3⟩, none, none⟩ : Label Int), ⟨⟨3, 0⟩, none, none⟩] (0 : Nat) 0 = .ok m ∧
        ∀ w ∈ m.windows, ∀ l ∈ w.labels, ∃ c,
          Contents.read [0x61, 0x62, 0x0A, 0x63, 0x64, 0x0A] l.span (0 : Nat) 0 = .ok c ∧
            ((∀ i, c.Touches i → w.contents.Touches i) ↔
              ¬w.Hides [0x61, 0x62, 0x0A, 0x63, 0x64, 0x0A] 0 l) :=
  ⟨by decide, touches_iff_not_hides _ _ 0 0 (by decide)⟩

/-- It is not so that a window shows every line that one of its labels would have been shown with
alone: the line of that point is missing. -/
theorem not_all_touched :
    ¬∀ (bytes : List UInt8) (labels : List (Label Int)) (before after : Nat),
      (∀ l ∈ labels, l.span.Valid) → ∀ m, Merge.ofLabels bytes labels before after = .ok m →
        ∀ w ∈ m.windows, ∀ l ∈ w.labels, ∀ c, Contents.read bytes l.span before after = .ok c →
          ∀ i, c.Touches i → w.contents.Touches i := by
  intro shown
  have gathered : Merge.ofLabels [0x61, 0x62, 0x0A, 0x63, 0x64, 0x0A]
      [(⟨⟨0, 3⟩, none, none⟩ : Label Int), ⟨⟨3, 0⟩, none, none⟩] (0 : Nat) 0 =
        .ok ⟨[⟨⟨0, 3⟩, [⟨⟨0, 3⟩, none, none⟩, ⟨⟨3, 0⟩, none, none⟩], ⟨⟨0, 3⟩, none, none⟩, 0, 0,
          ⟨[0x61, 0x62, 0x0A], 0, 3, 0, 0, 1⟩⟩], []⟩ := by
    rw [Merge.ofLabels, Label.sort_eq_mergeSort, List.mergeSort_of_pairwise (by decide)]
    rfl
  have touched := shown _ _ 0 0 (by decide) _ gathered _ (List.mem_singleton.mpr rfl)
    ⟨⟨3, 0⟩, none, none⟩ (by simp) ⟨[0x63, 0x64, 0x0A], 3, 6, 1, 0, 1⟩ rfl 1 (by decide)
  exact absurd touched (by decide)

end Window

end Marginalia
