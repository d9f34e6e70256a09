import Marginalia.Proofs.Snippet.Separation

/-!
# Labels that cannot be read

A label that its source does not reach leaves the window in hand as it is, wherever it stands among
the others.  So the windows are those of the labels that can be read, and a snippet is the snippet
of those behind one notice for each of the rest.
-/

namespace Marginalia

variable {bytes : List UInt8} {before after : Nat} {l : Label Int}

/-- The way of labels is the way of those that can be read. -/
theorem Merge.Gathers.readable {current : Option (Draft Int)} {labels : List (Label Int)}
    {m : Merge Int} (gathers : Gathers bytes before after current labels m) :
    Gathers bytes before after current (labels.filter (!·.isBeyond bytes)) ⟨m.windows, []⟩ := by
  induction gathers with
  | nothing => exact .nothing
  | last sound finished => exact .last sound finished
  | refuse beyond _ ih =>
    rw [List.filter_cons_of_neg (by simp [isBeyond_of_exceeds beyond])]
    exact ih
  | start read _ ih =>
    rw [List.filter_cons_of_pos (by simp [not_isBeyond_of_read read])]
    exact .start read ih
  | grow sound read touches union reread _ ih =>
    rw [List.filter_cons_of_pos (by simp [not_isBeyond_of_read read])]
    exact .grow sound read touches union reread ih
  | part sound read apart finished _ ih =>
    rw [List.filter_cons_of_pos (by simp [not_isBeyond_of_read read])]
    exact .part sound read apart finished ih

namespace Window

/-! ## Points at the end can be read -/

theorem isBeyond_of_atEnd (atEnd : AtEnd bytes l) : l.isBeyond bytes = false := by
  obtain ⟨point, offset⟩ := atEnd
  rw [Span.isPoint_iff] at point
  have stop_eq := l.span.stop_eq
  refine decide_eq_false ?_
  simp only [Coordinate.Same] at offset
  omega

theorem isBeyond_settle (l : Label Int) : (settle bytes l).isBeyond bytes = l.isBeyond bytes := by
  by_cases atEnd : AtEnd bytes l
  · have readable := isBeyond_of_atEnd atEnd
    have stop_le : (settle bytes l).span.stop ≤ l.span.stop := settle_stop_le l
    rw [readable]
    refine decide_eq_false ?_
    have := of_decide_eq_false readable
    omega
  · rw [settle_of_not_atEnd atEnd]

/-- Labels are settled before or after some are left out. -/
theorem filter_readable_settle (labels : List (Label Int)) :
    (labels.map (settle bytes)).filter (!·.isBeyond bytes) =
      (labels.filter (!·.isBeyond bytes)).map (settle bytes) := by
  simp only [List.filter_map, Function.comp_def, isBeyond_settle]

/-- A label that cannot be read stays where it is. -/
theorem filter_isBeyond_settle (labels : List (Label Int)) :
    (labels.map (settle bytes)).filter (·.isBeyond bytes) = labels.filter (·.isBeyond bytes) := by
  have unmoved : ∀ l ∈ labels.filter (·.isBeyond bytes), settle bytes l = id l := by
    intro l member
    have beyond : l.isBeyond bytes = true := (List.mem_filter.mp member).2
    refine settle_of_not_atEnd fun atEnd => ?_
    rw [isBeyond_of_atEnd atEnd] at beyond
    exact Bool.false_ne_true beyond
  simp only [List.filter_map, Function.comp_def, isBeyond_settle]
  rw [List.map_congr_left unmoved, List.map_id]

end Window

namespace Snippet

/-- The row that tells of a label that cannot be read. -/
def notice (manner : Manner) (l : Label Int) : Row :=
  [.blank 2, ⟨manner.theme.palette.error, [.text l.unreadableNotice.toList]⟩]

theorem notices_refused (manner : Manner) (size : Nat) (labels : List (Label Int)) :
    notices manner (labels.map fun l => ⟨l, .exceeds l.span size⟩) =
      labels.map (notice manner) := by
  rw [notices, List.map_map]
  rfl

/-- Labels that end behind the source change no window: the windows are those of the labels that
can be read, wherever the others stand.  A snippet has one notice for each of them, in the order of
their spans, and then what is drawn for the labels that can be read. -/
theorem unreadable_labels_set_aside (source : Source) (labels : List (Label Int))
    (valid : ∀ l ∈ labels, l.span.Valid) :
    (∀ before after : Nat, ∃ m m',
      Merge.ofLabels source.bytes labels before after = .ok m ∧
      Merge.ofLabels source.bytes (labels.filter (!·.isBeyond source.bytes)) before after =
        .ok m' ∧ m'.windows = m.windows ∧ m'.failures = []) ∧
    ∃ unreadable, Label.StablySorted unreadable (labels.filter (·.isBeyond source.bytes)) ∧
      ∀ manner : Manner, ∃ shown,
        rows manner source (labels.filter (!·.isBeyond source.bytes)) = .ok shown ∧
        rows manner source labels = .ok (unreadable.map (notice manner) ++ shown) := by
  have set_aside {labels : List (Label Int)} (valid : ∀ l ∈ labels, l.span.Valid)
      (before after : Nat) : ∃ m, Merge.ofLabels source.bytes labels before after = .ok m ∧
        Merge.Gathers source.bytes before after none (Label.sort labels) m ∧
        Merge.ofLabels source.bytes (labels.filter (!·.isBeyond source.bytes)) before after =
          .ok ⟨m.windows, []⟩ := by
    obtain ⟨m, gathered, gathers⟩ := Merge.exists_gathers valid source.bytes before after
    refine ⟨m, gathered, gathers, ?_⟩
    rw [Merge.ofLabels, ← Label.filter_sort]
    exact gathers.readable.ofSorted_eq
  constructor
  · intro before after
    obtain ⟨m, gathered, -, gathered'⟩ := set_aside valid before after
    exact ⟨m, _, gathered, gathered', rfl, rfl⟩
  · refine ⟨_, Label.sort_stablySorted _, fun manner => ?_⟩
    obtain ⟨m, gathered, gathers, gathered'⟩ :=
      set_aside (Window.settled_valid valid) manner.before manner.after
    rw [Window.filter_readable_settle] at gathered'
    obtain ⟨frames, framed, -, -⟩ := Frame.exists_frames gathers.madeOfLabels
    refine ⟨_, rows_of_frames gathered' framed, ?_⟩
    rw [rows_of_frames gathered framed, gathers.failures_eq, notices_refused, Label.filter_sort,
      Window.filter_isBeyond_settle]
    rfl

/-- A label that begins with the first one and ends far behind the source, which sorts in front of
both others. -/
theorem unreadable_labels_set_aside_in_front :
    (∀ l ∈ [(⟨⟨2, 1⟩, none, none⟩ : Label Int), ⟨⟨0, 9⟩, none, none⟩, ⟨⟨0, 1⟩, none, none⟩],
        l.span.Valid) ∧
      ∃ (unreadable : List (Label Int)) (shown : List Row),
        rows ⟨0, 0, 4, .asciiPlain, .plain⟩ (.ofText "a\nb\n")
          [(⟨⟨2, 1⟩, none, none⟩ : Label Int), ⟨⟨0, 1⟩, none, none⟩] = .ok shown ∧
        rows ⟨0, 0, 4, .asciiPlain, .plain⟩ (.ofText "a\nb\n")
          [(⟨⟨2, 1⟩, none, none⟩ : Label Int), ⟨⟨0, 9⟩, none, none⟩, ⟨⟨0, 1⟩, none, none⟩] =
          .ok (unreadable.map (notice ⟨0, 0, 4, .asciiPlain, .plain⟩) ++ shown) := by
  refine ⟨by decide, ?_⟩
  obtain ⟨unreadable, -, drawn⟩ := (unreadable_labels_set_aside (.ofText "a\nb\n")
    [⟨⟨2, 1⟩, none, none⟩, ⟨⟨0, 9⟩, none, none⟩, ⟨⟨0, 1⟩, none, none⟩] (by decide)).2
  obtain ⟨shown, readable, whole⟩ := drawn ⟨0, 0, 4, .asciiPlain, .plain⟩
  exact ⟨unreadable, shown, readable, whole⟩

end Snippet

end Marginalia
