import Marginalia.Proofs.Source.Reading
import Marginalia.Proofs.Span.Sorted
import Marginalia.Snippet.Window

/-!
# Gathering labels

`Merge.Gathers` tells how valid labels become windows, one label after the other with a window in
hand: everything that a step can do is one of its cases, with what was found out on the way.  Sorted
or not, valid labels are always gathered, because a union of spans within the source is within the
source.  What is true of windows is proved by induction on `Gathers`.
-/

namespace Marginalia

/-! ## Steps that go well -/

section

variable {ε α β : Type}

/-- What went well in two steps went well in each. -/
theorem of_bind_eq_ok {x : Except ε α} {f : α → Except ε β} {b : β} (eq : (x >>= f) = .ok b) :
    ∃ a, x = .ok a ∧ f a = .ok b := by
  cases x with
  | error e => cases eq
  | ok a => exact ⟨a, rfl, eq⟩

theorem of_map_eq_ok {x : Except ε α} {f : α → β} {b : β} (eq : x.map f = .ok b) :
    ∃ a, x = .ok a ∧ f a = b := by
  cases x with
  | error e => cases eq
  | ok a => exact ⟨a, rfl, Except.ok.inj eq⟩

/-- What was made of the elements of a list was made of one of them each. -/
theorem exists_of_mem_mapM {f : α → Except ε β} {as : List α} {bs : List β}
    (mapped : as.mapM f = .ok bs) {b : β} (member : b ∈ bs) : ∃ a ∈ as, f a = .ok b := by
  induction as generalizing bs with
  | nil =>
    cases mapped
    exact absurd member List.not_mem_nil
  | cons a rest ih =>
    rw [List.mapM_cons] at mapped
    obtain ⟨first, made, mapped⟩ := of_bind_eq_ok mapped
    obtain ⟨more, others, mapped⟩ := of_bind_eq_ok mapped
    cases mapped
    rcases List.mem_cons.mp member with rfl | member
    · exact ⟨a, .head _, made⟩
    · obtain ⟨x, x_member, x_made⟩ := ih others member
      exact ⟨x, .tail _ x_member, x_made⟩

end

variable {bytes : List UInt8} {before after : Nat}

namespace Draft

/-! ## Windows in hand -/

/-- A window in hand: its span covers its labels and its contents are read for that span. -/
structure Sound (bytes : List UInt8) (before after : Nat) (d : Draft Int) : Prop where
  valid : d.span.Valid
  labels_valid : ∀ l ∈ d.labels, l.span.Valid
  covers : d.span.Covers d.labels
  read : Contents.read bytes d.span before after = .ok d.contents

theorem labels_extend {κ : Type} (d : Draft κ) (l : Label κ) (s : Span κ) (c : Contents κ) :
    (d.extend l s c).labels = d.labels ++ [l] := by
  simp [labels, extend]

theorem Sound.inside {d : Draft Int} (sound : d.Sound bytes before after) :
    d.span.Inside bytes :=
  sound.valid.inside (Contents.stop_le_of_read sound.read)

theorem sound_ofLabel {l : Label Int} {c : Contents Int} (valid : l.span.Valid)
    (read : Contents.read bytes l.span before after = .ok c) :
    (ofLabel l c).Sound bytes before after :=
  ⟨valid, by simpa [ofLabel, labels] using valid, Span.covers_singleton l, read⟩

theorem Sound.extend {d : Draft Int} {l : Label Int} {u : Span Int} {c : Contents Int}
    (sound : d.Sound bytes before after) (valid : l.span.Valid)
    (union : d.span.union l.span = .ok u)
    (read : Contents.read bytes u before after = .ok c) :
    (d.extend l u c).Sound bytes before after := by
  refine ⟨(Span.of_union_eq_ok union).1, ?_, ?_, read⟩
  · intro k member
    rw [labels_extend] at member
    rcases List.mem_append.mp member with member | member
    · exact sound.labels_valid k member
    · cases List.mem_singleton.mp member
      exact valid
  · rw [labels_extend]
    exact sound.covers.union union

theorem anchorOf_mem (d : Draft Int) : anchorOf d.first d.labels ∈ d.labels := by
  unfold anchorOf
  cases found : d.labels.find? Label.isPrimary with
  | none => simp [labels]
  | some l => exact List.mem_of_find?_eq_some found

/-- What is known of a window that was finished. -/
theorem of_finish_eq_ok {κ : Type} [Coordinate κ] {d : Draft κ} {w : Window κ}
    (finished : d.finish bytes = .ok w) :
    w.span = d.span ∧ w.labels = d.labels ∧ w.contents = d.contents ∧
      w.anchor = anchorOf d.first d.labels ∧
      Contents.locate bytes w.anchor.span.offset = .ok (w.line, w.column) := by
  obtain ⟨⟨line, column⟩, located, finished⟩ := of_bind_eq_ok finished
  cases finished
  exact ⟨rfl, rfl, rfl, rfl, located⟩

/-- What is known of a window that has grown. -/
theorem of_join_eq_some {κ : Type} [Coordinate κ] {before : Int} {d grown : Draft κ} {l : Label κ}
    {c : Contents κ} (joined : d.join bytes before after l c = .ok (some grown)) :
    ∃ u read, d.span.union l.span = .ok u ∧ Contents.read bytes u before after = .ok read ∧
      grown = d.extend l u read := by
  unfold join at joined
  split at joined
  · obtain ⟨u, union, some_grown⟩ := of_map_eq_ok joined
    split at some_grown
    · rename_i read reread
      exact ⟨u, read, union, reread, (Option.some.inj some_grown).symm⟩
    · cases some_grown
  · cases joined

theorem Sound.anchor_inside {d : Draft Int} (sound : d.Sound bytes before after) :
    0 ≤ (anchorOf d.first d.labels).span.offset ∧
      (anchorOf d.first d.labels).span.offset ≤ bytes.length := by
  have member := anchorOf_mem d
  have valid := (Span.valid_iff _).mp (sound.labels_valid _ member)
  have le_stop := sound.covers.le_stop _ member
  have stop_eq := Span.stop_eq (anchorOf d.first d.labels).span
  have inside := sound.inside.stop
  omega

theorem Sound.exists_finish {d : Draft Int} (sound : d.Sound bytes before after) :
    ∃ w, d.finish bytes = .ok w := by
  obtain ⟨nonneg, anchored⟩ := sound.anchor_inside
  obtain ⟨place, located⟩ := Contents.exists_locate nonneg anchored
  refine ⟨⟨d.span, d.labels, anchorOf d.first d.labels, place.1, place.2, d.contents⟩, ?_⟩
  rw [finish, located]
  rfl

theorem Sound.exists_join {d : Draft Int} {l : Label Int} (sound : d.Sound bytes before after)
    (valid : l.span.Valid) (inside : l.span.stop ≤ bytes.length) :
    ∃ u c, d.span.union l.span = .ok u ∧ Contents.read bytes u before after = .ok c := by
  obtain ⟨u, union⟩ := Span.exists_union sound.valid valid
  obtain ⟨u_valid, -, stop_eq⟩ := Span.of_union_eq_ok union
  have d_inside := sound.inside.stop
  have u_inside : u.Inside bytes := u_valid.inside (by omega)
  obtain ⟨c, read⟩ := Contents.exists_read u_inside before after
  exact ⟨u, c, union, read⟩

theorem join_of_touches {d : Draft Int} {l : Label Int} {c grown : Contents Int} {u : Span Int}
    (reached : c.line ≤ d.contents.reach) (union : d.span.union l.span = .ok u)
    (reread : Contents.read bytes u before after = .ok grown) :
    d.join bytes before after l c = .ok (some (d.extend l u grown)) := by
  have touches : d.touches c = true := decide_eq_true reached
  rw [join, if_pos touches, union]
  simp only [Except.map, reread]

theorem join_of_apart {d : Draft Int} {l : Label Int} {c : Contents Int}
    (apart : d.contents.reach < c.line) : d.join bytes before after l c = .ok none := by
  have touches : d.touches c = false := decide_eq_false (Nat.not_le_of_lt apart)
  rw [join, touches]
  rfl

end Draft

/-! ## The way of the labels -/

namespace Merge

/-- How labels become windows and failures, with a window in hand or without one. -/
inductive Gathers (bytes : List UInt8) (before after : Nat) :
    Option (Draft Int) → List (Label Int) → Merge Int → Prop
  | nothing : Gathers bytes before after none [] ⟨[], []⟩
  | last {d : Draft Int} {w : Window Int} (sound : d.Sound bytes before after)
      (finished : d.finish bytes = .ok w) : Gathers bytes before after (some d) [] ⟨[w], []⟩
  | refuse {current : Option (Draft Int)} {l : Label Int} {rest : List (Label Int)} {m : Merge Int}
      (beyond : (bytes.length : Int) < l.span.stop)
      (others : Gathers bytes before after current rest m) :
      Gathers bytes before after current (l :: rest)
        (m.addFailure ⟨l, .exceeds l.span bytes.length⟩)
  | start {l : Label Int} {c : Contents Int} {rest : List (Label Int)} {m : Merge Int}
      (read : Contents.read bytes l.span before after = .ok c)
      (others : Gathers bytes before after (some (.ofLabel l c)) rest m) :
      Gathers bytes before after none (l :: rest) m
  | grow {d : Draft Int} {l : Label Int} {c grown : Contents Int} {u : Span Int}
      {rest : List (Label Int)} {m : Merge Int} (sound : d.Sound bytes before after)
      (read : Contents.read bytes l.span before after = .ok c) (touches : c.line ≤ d.contents.reach)
      (union : d.span.union l.span = .ok u)
      (reread : Contents.read bytes u before after = .ok grown)
      (others : Gathers bytes before after (some (d.extend l u grown)) rest m) :
      Gathers bytes before after (some d) (l :: rest) m
  | part {d : Draft Int} {w : Window Int} {l : Label Int} {c : Contents Int}
      {rest : List (Label Int)} {m : Merge Int} (sound : d.Sound bytes before after)
      (read : Contents.read bytes l.span before after = .ok c) (apart : d.contents.reach < c.line)
      (finished : d.finish bytes = .ok w)
      (others : Gathers bytes before after (some (.ofLabel l c)) rest m) :
      Gathers bytes before after (some d) (l :: rest) (m.addWindow w)

/-- Labels become what the way tells of them. -/
theorem Gathers.ofSorted_eq {current : Option (Draft Int)} {labels : List (Label Int)}
    {m : Merge Int} (gathers : Gathers bytes before after current labels m) :
    ofSorted bytes before after current labels = .ok m := by
  induction gathers with
  | nothing => rfl
  | last _ finished =>
    rw [ofSorted, finished]
    rfl
  | refuse beyond _ ih =>
    rw [ofSorted, Contents.read_of_exceeds before after beyond]
    exact congrArg (Except.map _) ih
  | start read _ ih =>
    rw [ofSorted, read]
    exact ih
  | grow _ read touches union reread _ ih =>
    rw [ofSorted, read]
    simp only [Draft.join_of_touches touches union reread, bind, Except.bind]
    exact ih
  | part _ read apart finished _ ih =>
    rw [ofSorted, read]
    simp only [Draft.join_of_apart apart, finished, ih, bind, Except.bind, pure, Except.pure]

/-- Valid labels have a way, whatever window is in hand. -/
theorem exists_gathers_from {current : Option (Draft Int)} {labels : List (Label Int)}
    (sound : ∀ d, current = some d → d.Sound bytes before after)
    (valid : ∀ l ∈ labels, l.span.Valid) : ∃ m, Gathers bytes before after current labels m := by
  induction labels generalizing current with
  | nil =>
    cases current with
    | none => exact ⟨_, .nothing⟩
    | some d =>
      obtain ⟨w, finished⟩ := (sound d rfl).exists_finish
      exact ⟨_, .last (sound d rfl) finished⟩
  | cons l rest ih =>
    have l_valid := valid l List.mem_cons_self
    have rest_valid : ∀ k ∈ rest, k.span.Valid := fun k member =>
      valid k (List.mem_cons_of_mem _ member)
    by_cases beyond : (bytes.length : Int) < l.span.stop
    · obtain ⟨m, gathers⟩ := ih sound rest_valid
      exact ⟨_, .refuse beyond gathers⟩
    · have inside := Int.not_lt.mp beyond
      obtain ⟨c, read⟩ := Contents.exists_read (l_valid.inside inside) before after
      have fresh : ∀ d, some (Draft.ofLabel l c) = some d → d.Sound bytes before after := by
        rintro d ⟨⟩
        exact Draft.sound_ofLabel l_valid read
      cases current with
      | none =>
        obtain ⟨m, gathers⟩ := ih fresh rest_valid
        exact ⟨m, .start read gathers⟩
      | some d =>
        have d_sound := sound d rfl
        by_cases touches : c.line ≤ d.contents.reach
        · obtain ⟨u, grown, union, reread⟩ := d_sound.exists_join l_valid inside
          obtain ⟨m, gathers⟩ := @ih (some (d.extend l u grown))
            (by rintro _ ⟨⟩; exact d_sound.extend l_valid union reread) rest_valid
          exact ⟨m, .grow d_sound read touches union reread gathers⟩
        · obtain ⟨w, finished⟩ := d_sound.exists_finish
          obtain ⟨m, gathers⟩ := ih fresh rest_valid
          exact ⟨_, .part d_sound read (Nat.lt_of_not_le touches) finished gathers⟩

theorem exists_gathers {labels : List (Label Int)} (valid : ∀ l ∈ labels, l.span.Valid)
    (bytes : List UInt8) (before after : Nat) :
    ∃ m, ofLabels bytes labels before after = .ok m ∧
      Gathers bytes before after none (Label.sort labels) m := by
  obtain ⟨m, gathers⟩ : ∃ m, Gathers bytes before after none (Label.sort labels) m := by
    refine exists_gathers_from (fun d absent => absurd absent (by simp)) fun l member => ?_
    exact valid l ((Label.sort_stablySorted labels).perm.mem_iff.mp member)
  exact ⟨m, gathers.ofSorted_eq, gathers⟩

end Merge

end Marginalia
