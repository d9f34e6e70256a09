import Marginalia.Proofs.Snippet.Gathering

/-!
# Every label once

Gathering labels neither loses nor doubles one: those that the source does not reach become failures
and all others stand in the windows, both in the order of their spans.  A window is what its labels
make of it.
-/

namespace Marginalia

variable {bytes : List UInt8} {before after : Nat}

/-- Whether a label ends behind a source. -/
def Label.isBeyond (bytes : List UInt8) (l : Label Int) : Bool := (bytes.length : Int) < l.span.stop

/-- A window that is what its labels make of it: it spans them, it is read for that span, and it is
headed by the first primary label or else by the first one. -/
structure Window.MadeOfLabels (bytes : List UInt8) (before after : Nat) (w : Window Int) : Prop where
  valid : w.span.Valid
  labels_valid : ∀ l ∈ w.labels, l.span.Valid
  covers : w.span.Covers w.labels
  read : Contents.read bytes w.span before after = .ok w.contents
  anchor_eq : some w.anchor = (w.labels.find? Label.isPrimary).or w.labels.head?
  located : Contents.locate bytes w.anchor.span.offset = .ok (w.line, w.column)

namespace Merge

variable {current : Option (Draft Int)} {labels : List (Label Int)} {m : Merge Int}

theorem isBeyond_of_exceeds {l : Label Int} (beyond : (bytes.length : Int) < l.span.stop) :
    l.isBeyond bytes = true :=
  decide_eq_true beyond

theorem not_isBeyond_of_read {l : Label Int} {before : Int} {c : Contents Int}
    (read : Contents.read bytes l.span before after = .ok c) : l.isBeyond bytes = false :=
  decide_eq_false (Int.not_lt.mpr (Contents.stop_le_of_read read))

theorem Gathers.failures_eq (gathers : Gathers bytes before after current labels m) :
    m.failures = (labels.filter (·.isBeyond bytes)).map fun l =>
      ⟨l, .exceeds l.span bytes.length⟩ := by
  induction gathers with
  | nothing => rfl
  | last => rfl
  | refuse beyond _ ih =>
    rw [List.filter_cons_of_pos (isBeyond_of_exceeds beyond), List.map_cons, ← ih]
    rfl
  | start read _ ih => rw [ih, List.filter_cons_of_neg (by simp [not_isBeyond_of_read read])]
  | grow _ read _ _ _ _ ih => rw [ih, List.filter_cons_of_neg (by simp [not_isBeyond_of_read read])]
  | part _ read _ _ _ ih =>
    rw [List.filter_cons_of_neg (by simp [not_isBeyond_of_read read]), ← ih]
    rfl

theorem Gathers.labels_eq (gathers : Gathers bytes before after current labels m) :
    m.windows.flatMap Window.labels =
      (current.elim [] Draft.labels) ++ labels.filter (!·.isBeyond bytes) := by
  induction gathers with
  | nothing => rfl
  | last _ finished => simp [(Draft.of_finish_eq_ok finished).2.1]
  | refuse beyond _ ih =>
    rw [List.filter_cons_of_neg (by simp [isBeyond_of_exceeds beyond]), ← ih]
    rfl
  | start read _ ih =>
    rw [List.filter_cons_of_pos (by simp [not_isBeyond_of_read read]), ih]
    rfl
  | grow _ read _ _ _ _ ih =>
    rw [List.filter_cons_of_pos (by simp [not_isBeyond_of_read read]), ih]
    simp [Draft.labels_extend]
  | part _ read _ finished _ ih =>
    rw [List.filter_cons_of_pos (by simp [not_isBeyond_of_read read]), addWindow,
      List.flatMap_cons, ih, (Draft.of_finish_eq_ok finished).2.1]
    rfl

/-- Every window was in hand and finished. -/
theorem Gathers.exists_draft (gathers : Gathers bytes before after current labels m) :
    ∀ w ∈ m.windows, ∃ d : Draft Int, d.Sound bytes before after ∧ d.finish bytes = .ok w := by
  induction gathers with
  | nothing => simp
  | last sound finished =>
    intro w member
    cases List.mem_singleton.mp member
    exact ⟨_, sound, finished⟩
  | refuse _ _ ih => exact ih
  | start _ _ ih => exact ih
  | grow _ _ _ _ _ _ ih => exact ih
  | part sound _ _ finished _ ih =>
    intro w member
    rcases List.mem_cons.mp member with rfl | member
    · exact ⟨_, sound, finished⟩
    · exact ih w member

theorem Gathers.madeOfLabels (gathers : Gathers bytes before after current labels m) :
    ∀ w ∈ m.windows, w.MadeOfLabels bytes before after := by
  intro w member
  obtain ⟨d, sound, finished⟩ := gathers.exists_draft w member
  obtain ⟨span_eq, labels_eq, contents_eq, anchor_eq, located⟩ := Draft.of_finish_eq_ok finished
  refine ⟨?_, ?_, ?_, ?_, ?_, located⟩
  · rw [span_eq]
    exact sound.valid
  · rw [labels_eq]
    exact sound.labels_valid
  · rw [span_eq, labels_eq]
    exact sound.covers
  · rw [span_eq, contents_eq]
    exact sound.read
  · rw [anchor_eq, labels_eq, Draft.anchorOf]
    cases d.labels.find? Label.isPrimary <;> rfl

/-- Valid labels are always gathered.  Those that end behind the source fail, all others stand in
the windows, each once and in the order of their spans, and every window is what its labels make of
it. -/
theorem ofLabels_partitions (bytes : List UInt8) (labels : List (Label Int)) (before after : Nat)
    (valid : ∀ l ∈ labels, l.span.Valid) :
    ∃ m, ofLabels bytes labels before after = .ok m ∧
      Label.StablySorted (m.failures.map Failure.label) (labels.filter (·.isBeyond bytes)) ∧
      (∀ f ∈ m.failures, f.error = .exceeds f.label.span bytes.length) ∧
      Label.StablySorted (m.windows.flatMap Window.labels)
        (labels.filter (!·.isBeyond bytes)) ∧
      ∀ w ∈ m.windows, w.MadeOfLabels bytes before after := by
  obtain ⟨m, gathered, gathers⟩ := exists_gathers valid bytes before after
  have sorted := Label.sort_stablySorted labels
  refine ⟨m, gathered, ?_, ?_, ?_, gathers.madeOfLabels⟩
  · rw [gathers.failures_eq, List.map_map]
    simpa [Function.comp_def] using sorted.filter (·.isBeyond bytes)
  · intro f member
    rw [gathers.failures_eq] at member
    obtain ⟨l, _, rfl⟩ := List.mem_map.mp member
    rfl
  · rw [gathers.labels_eq]
    exact sorted.filter (!·.isBeyond bytes)

/-- Three labels out of order on the lines `ab` and `cd`, the last of them beyond both. -/
theorem ofLabels_partitions_unsorted :
    (∀ l ∈ [(⟨⟨3, 0⟩, none, some true⟩ : Label Int), ⟨⟨0, 3⟩, none, none⟩, ⟨⟨5, 9⟩, none, none⟩],
        l.span.Valid) ∧
      ∃ m, ofLabels [0x61, 0x62, 0x0A, 0x63, 0x64, 0x0A]
          [(⟨⟨3, 0⟩, none, some true⟩ : Label Int), ⟨⟨0, 3⟩, none, none⟩, ⟨⟨5, 9⟩, none, none⟩]
          (0 : Nat) 0 = .ok m ∧
        ∀ w ∈ m.windows, w.MadeOfLabels [0x61, 0x62, 0x0A, 0x63, 0x64, 0x0A] 0 0 := by
  refine ⟨by decide, ?_⟩
  obtain ⟨m, gathered, -, -, -, made⟩ :=
    ofLabels_partitions [0x61, 0x62, 0x0A, 0x63, 0x64, 0x0A]
      [⟨⟨3, 0⟩, none, some true⟩, ⟨⟨0, 3⟩, none, none⟩, ⟨⟨5, 9⟩, none, none⟩] 0 0 (by decide)
  exact ⟨m, gathered, made⟩

end Merge

end Marginalia
