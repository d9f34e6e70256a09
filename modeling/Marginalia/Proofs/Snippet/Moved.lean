import Marginalia.Proofs.Snippet.Partition
import Marginalia.Proofs.Snippet.Settling
import Marginalia.Proofs.Span.Moved
import Marginalia.Snippet.Drawing

/-!
# Labels gathered in a moved source

If spans that are moved into another source are read there as they were read before, up to a change
of what is read, then their labels are gathered there in the same way: each step has its counterpart
and the windows differ by no more than that change.
-/

namespace Marginalia

/-- A motion from one source to another with what becomes of all that is read. -/
structure Transfer (bytes bytes' : List UInt8) (before after : Nat) extends Motion where
  contents : Contents Int → Contents Int
  /-- What becomes of a line and the bytes in front of a position on it. -/
  header : Nat × Int → Nat × Int
  line_eq : ∀ c, (contents c).line = c.line
  reach_eq : ∀ c, (contents c).reach = c.reach
  read : ∀ {s : Span Int} {c : Contents Int}, s.Inside bytes →
    Contents.read bytes s before after = .ok c →
    Contents.read bytes' (s.moved toMotion) before after = .ok (contents c)
  locate : ∀ {position : Int} {found : Nat × Int}, 0 ≤ position → position ≤ bytes.length →
    Contents.locate bytes position = .ok found →
    Contents.locate bytes' (place position) = .ok (header found)

variable {bytes bytes' : List UInt8} {before after : Nat} (t : Transfer bytes bytes' before after)

/-- A window on the moved labels. -/
def Window.moved (w : Window Int) : Window Int where
  span := w.span.moved t.toMotion
  labels := w.labels.map (Label.moved t.toMotion)
  anchor := w.anchor.moved t.toMotion
  line := (t.header (w.line, w.column)).1
  column := (t.header (w.line, w.column)).2
  contents := t.contents w.contents

namespace Draft

/-- A window in hand with the moved labels. -/
def moved (d : Draft Int) : Draft Int where
  span := d.span.moved t.toMotion
  contents := t.contents d.contents
  first := d.first.moved t.toMotion
  others := d.others.map (Label.moved t.toMotion)

theorem labels_moved (d : Draft Int) :
    (d.moved t).labels = d.labels.map (Label.moved t.toMotion) := by
  simp [labels, moved]

theorem anchorOf_map_moved (first : Label Int) (labels : List (Label Int)) :
    anchorOf (first.moved t.toMotion) (labels.map (Label.moved t.toMotion)) =
      (anchorOf first labels).moved t.toMotion := by
  have kept : Label.isPrimary ∘ Label.moved t.toMotion = Label.isPrimary := rfl
  rw [anchorOf, anchorOf, List.find?_map, kept]
  cases labels.find? Label.isPrimary <;> rfl

variable {d : Draft Int} {w : Window Int}

theorem Sound.moved (sound : d.Sound bytes before after)
    (valid : ∀ l ∈ d.labels, (l.moved t.toMotion).span.Valid) :
    (d.moved t).Sound bytes' before after := by
  have valid' : ∀ l ∈ (d.moved t).labels, l.span.Valid := by
    rw [labels_moved, List.forall_mem_map]
    exact valid
  have covers := sound.covers.moved t.toMotion
  rw [← labels_moved] at covers
  exact ⟨covers.valid valid', valid', covers, t.read sound.inside sound.read⟩

theorem Sound.finish_moved (sound : d.Sound bytes before after)
    (finished : d.finish bytes = .ok w) : (d.moved t).finish bytes' = .ok (w.moved t) := by
  obtain ⟨span_eq, labels_eq, contents_eq, anchor_eq, located⟩ := of_finish_eq_ok finished
  obtain ⟨nonneg, anchored⟩ := sound.anchor_inside
  rw [← anchor_eq] at nonneg anchored
  have located' := t.locate nonneg anchored located
  have anchor_eq' : anchorOf (d.moved t).first (d.moved t).labels = w.anchor.moved t.toMotion := by
    rw [labels_moved, anchor_eq]
    exact anchorOf_map_moved t d.first d.labels
  rw [finish, anchor_eq', Label.span_moved, Span.offset_moved, located', labels_moved, ← labels_eq]
  show Except.ok _ = Except.ok _
  rw [Window.moved, span_eq, contents_eq]
  rfl

end Draft

namespace Merge

variable {current : Option (Draft Int)} {labels : List (Label Int)} {m : Merge Int}

/-- Labels within a source go the same way when they are moved. -/
theorem Gathers.moved (gathers : Gathers bytes before after current labels m)
    (valid : ∀ l ∈ labels, l.span.Valid) (inside : ∀ l ∈ labels, l.span.stop ≤ bytes.length)
    (moved_valid : ∀ l ∈ labels, (l.moved t.toMotion).span.Valid)
    (held_valid : ∀ d, current = some d → ∀ l ∈ d.labels, (l.moved t.toMotion).span.Valid) :
    Gathers bytes' before after (current.map (Draft.moved t))
      (labels.map (Label.moved t.toMotion))
      { m with windows := m.windows.map (Window.moved t) } := by
  induction gathers with
  | nothing => exact .nothing
  | last sound finished =>
    exact .last (sound.moved t (held_valid _ rfl)) (sound.finish_moved t finished)
  | refuse beyond _ _ =>
    -- no label within the source is refused
    have stop := inside _ List.mem_cons_self
    omega
  | @start l c rest m read others ih =>
    obtain ⟨l_valid, rest_valid⟩ := List.forall_mem_cons.mp valid
    obtain ⟨l_inside, rest_inside⟩ := List.forall_mem_cons.mp inside
    obtain ⟨l_moved, rest_moved⟩ := List.forall_mem_cons.mp moved_valid
    refine .start (t.read (l_valid.inside l_inside) read) (ih rest_valid rest_inside rest_moved ?_)
    rintro _ ⟨⟩ k member
    cases List.mem_singleton.mp member
    exact l_moved
  | @grow d l c grown u rest m sound read touches union reread others ih =>
    obtain ⟨l_valid, rest_valid⟩ := List.forall_mem_cons.mp valid
    obtain ⟨l_inside, rest_inside⟩ := List.forall_mem_cons.mp inside
    obtain ⟨l_moved, rest_moved⟩ := List.forall_mem_cons.mp moved_valid
    have d_moved := held_valid d rfl
    have grown_moved : ∀ k ∈ (d.extend l u grown).labels, (k.moved t.toMotion).span.Valid := by
      rw [Draft.labels_extend, List.forall_mem_append]
      exact ⟨d_moved, List.forall_mem_singleton.mpr l_moved⟩
    have grown_sound := (sound.extend l_valid union reread).moved t grown_moved
    refine .grow (sound.moved t d_moved) (t.read (l_valid.inside l_inside) read) ?_
      (Span.union_moved t.toMotion union grown_sound.valid) grown_sound.read
      (ih rest_valid rest_inside rest_moved ?_)
    · rw [t.line_eq, Draft.moved, t.reach_eq]
      exact touches
    · rintro _ ⟨⟩
      exact grown_moved
  | @part d w l c rest m sound read apart finished others ih =>
    obtain ⟨l_valid, rest_valid⟩ := List.forall_mem_cons.mp valid
    obtain ⟨l_inside, rest_inside⟩ := List.forall_mem_cons.mp inside
    obtain ⟨l_moved, rest_moved⟩ := List.forall_mem_cons.mp moved_valid
    have fresh_moved : ∀ k ∈ (Draft.ofLabel l c).labels, (k.moved t.toMotion).span.Valid :=
      List.forall_mem_singleton.mpr l_moved
    have others' := ih rest_valid rest_inside rest_moved (by rintro _ ⟨⟩; exact fresh_moved)
    have apart' : (d.moved t).contents.reach < (t.contents c).line := by
      rw [t.line_eq, Draft.moved, t.reach_eq]
      exact apart
    exact .part (l := l.moved t.toMotion) (sound.moved t (held_valid d rfl))
      (t.read (l_valid.inside l_inside) read) apart' (sound.finish_moved t finished) others'

/-- The windows of moved labels are the moved windows. -/
theorem exists_gathered_moved (valid : ∀ l ∈ labels, l.span.Valid)
    (inside : ∀ l ∈ labels, l.span.stop ≤ bytes.length)
    (moved_valid : ∀ l ∈ labels, (l.moved t.toMotion).span.Valid) :
    ∃ m, ofLabels bytes labels before after = .ok m ∧
      ofLabels bytes' (labels.map (Label.moved t.toMotion)) before after =
        .ok { m with windows := m.windows.map (Window.moved t) } ∧
      Gathers bytes before after none (Label.sort labels) m := by
  obtain ⟨m, gathered, gathers⟩ := exists_gathers valid bytes before after
  have sorted {p : Label Int → Prop} (all : ∀ l ∈ labels, p l) : ∀ l ∈ Label.sort labels, p l :=
    fun l member => all l ((Label.sort_stablySorted labels).perm.mem_iff.mp member)
  have moved := gathers.moved t (sorted valid) (sorted inside) (sorted moved_valid) (by simp)
  refine ⟨m, gathered, ?_, gathers⟩
  rw [ofLabels, Label.sort_map_moved]
  exact moved.ofSorted_eq

end Merge

/-! ## Windows of a moved source -/

variable {source source' : Source} (u : Transfer source.bytes source'.bytes before after)

/-- If points at the end of a source move back as they did before, the windows of moved labels on
the moved source are the moved windows. -/
theorem Window.exists_ofSource_moved {labels : List (Label Int)}
    (settle_moved : ∀ l : Label Int, settle source'.bytes (l.moved u.toMotion) =
      (settle source.bytes l).moved u.toMotion)
    (valid : ∀ l ∈ labels, l.span.Valid) (inside : ∀ l ∈ labels, l.span.stop ≤ source.size)
    (moved_valid : ∀ l ∈ labels, (l.moved u.toMotion).span.Valid) :
    ∃ m, ofSource source labels before after = .ok m ∧
      ofSource source' (labels.map (Label.moved u.toMotion)) before after =
        .ok ⟨m.windows.map (Window.moved u), m.failures⟩ ∧
      ∀ w ∈ m.windows, w.MadeOfLabels source.bytes before after := by
  have settled_eq : (labels.map (Label.moved u.toMotion)).map (settle source'.bytes) =
      (labels.map (settle source.bytes)).map (Label.moved u.toMotion) := by
    rw [List.map_map, List.map_map]
    exact List.map_congr_left fun l _ => settle_moved l
  have settled_inside : ∀ l ∈ labels.map (settle source.bytes),
      l.span.stop ≤ source.bytes.length := by
    intro l member
    obtain ⟨k, k_member, rfl⟩ := List.mem_map.mp member
    exact Int.le_trans (settle_stop_le k) (inside k k_member)
  have settled_moved : ∀ l ∈ labels.map (settle source.bytes),
      (l.moved u.toMotion).span.Valid := by
    intro l member
    obtain ⟨k, k_member, rfl⟩ := List.mem_map.mp member
    rw [← settle_moved]
    exact settle_valid (moved_valid k k_member)
  obtain ⟨m, gathered, gathered', gathers⟩ := Merge.exists_gathered_moved u (settled_valid valid)
    settled_inside settled_moved
  refine ⟨m, gathered, ?_, gathers.madeOfLabels⟩
  rw [ofSource, settled_eq]
  exact gathered'

/-- If each window can be made ready together with the moved one, then so can all of them. -/
theorem Frame.exists_frames_moved {manner : Manner} {windows : List (Window Int)}
    {change : Frame Int → Frame Int} {kept : Frame Int → Prop}
    (each : ∀ w ∈ windows, ∃ f, ofWindow manner source w = .ok f ∧ kept f ∧
      ofWindow manner source' (w.moved u) = .ok (change f)) :
    ∃ frames, windows.mapM (ofWindow manner source) = .ok frames ∧ (∀ f ∈ frames, kept f) ∧
      (windows.map (Window.moved u)).mapM (ofWindow manner source') =
        .ok (frames.map change) := by
  induction windows with
  | nil => exact ⟨[], rfl, by simp, rfl⟩
  | cons w rest ih =>
    obtain ⟨⟨f, framed, f_kept, framed'⟩, rest_each⟩ := List.forall_mem_cons.mp each
    obtain ⟨frames, rest_framed, rest_kept, rest_framed'⟩ := ih rest_each
    refine ⟨f :: frames, ?_, List.forall_mem_cons.mpr ⟨f_kept, rest_kept⟩, ?_⟩
    · simp only [List.mapM_cons, framed, rest_framed, bind, Except.bind, pure, Except.pure]
    · simp only [List.map_cons, List.mapM_cons, framed', rest_framed', bind, Except.bind, pure,
        Except.pure]

end Marginalia
