import Marginalia.Proofs.Snippet.Partition

/-!
# More lines of context

With more lines of context windows only become fewer: each of them is made of whole windows with
less context.  A window in hand then has at least the labels that it had, and a window on more
labels ends no earlier, with one exception.  A point adds no byte, so it may be read behind the last
byte of a window that has taken it in, on the next line.  That is one line at most, and one more
line of context on either side makes up for it.
-/

namespace Marginalia

variable {bytes : List UInt8} {before after before' after' : Nat}

open Extent (table lineAt fullLines)

/-! ## Spans within spans -/

namespace Span

/-- A span that begins and ends within another. -/
structure Within (s t : Span Int) : Prop where
  offset_le : t.offset ≤ s.offset
  stop_le : s.stop ≤ t.stop

/-- A point at the end of a span is one byte behind its last byte. -/
theorem Within.lastByte_le {s t : Span Int} (within : s.Within t) (length : 0 ≤ s.length) :
    Contents.lastByte s ≤ Contents.lastByte t + 1 := by
  have offset_le := within.offset_le
  have stop_le := within.stop_le
  have stop_eq := Span.stop_eq s
  have stop_eq' := Span.stop_eq t
  rw [Contents.lastByte_eq, Contents.lastByte_eq]
  split <;> split <;> omega

theorem Within.union {s t l u v : Span Int} (within : s.Within t) (union : s.union l = .ok u)
    (union' : t.union l = .ok v) : u.Within v := by
  obtain ⟨-, offset_eq, stop_eq⟩ := of_union_eq_ok union
  obtain ⟨-, offset_eq', stop_eq'⟩ := of_union_eq_ok union'
  have offset_le := within.offset_le
  have stop_le := within.stop_le
  constructor <;> omega

theorem within_union {t l v : Span Int} (union : t.union l = .ok v) : l.Within v := by
  obtain ⟨-, offset_eq, stop_eq⟩ := of_union_eq_ok union
  constructor <;> omega

end Span

/-! ## How far a window reaches -/

namespace Contents

theorem lineAt_le_fullLines {position : Nat} (inside : position ≤ bytes.length) :
    lineAt bytes position ≤ fullLines bytes := by
  obtain ⟨line, found, _⟩ := Extent.exists_line inside
  have lt_length := (List.getElem?_eq_some_iff.mp found).1
  have length_le := (Extent.cuts_table bytes).length_le
  have full_eq : fullLines bytes = (table bytes).countP (!·.isEmpty) := rfl
  omega

/-- One line that is lost at the end of a window is made up for by one more line of context, on
either side. -/
theorem sub_le_bottom {first last last' : Nat} (le_before : before ≤ before')
    (le_after : after ≤ after') (more : before < before' ∨ after < after')
    (first_le : first ≤ fullLines bytes) (last_le : last ≤ last' + 1)
    (touches : first - before ≤ bottom bytes after last + 1) :
    first - before' ≤ bottom bytes after' last' + 1 := by
  rw [bottom_eq] at *
  omega

end Contents

namespace Draft

variable {d d' : Draft Int} {l : Label Int} {c c' : Contents Int}

/-- The last line of a window on more labels lies at most one line higher. -/
theorem Sound.lineAt_lastByte_le (sound : d.Sound bytes before after)
    (sound' : d'.Sound bytes before' after') (within : d.span.Within d'.span) :
    lineAt bytes (Contents.lastByte d.span).toNat ≤
      lineAt bytes (Contents.lastByte d'.span).toNat + 1 := by
  have last_le := within.lastByte_le sound.inside.length
  have offset := sound'.inside.offset
  have offset_le := Contents.offset_le_lastByte d'.span
  have toNat_le : (Contents.lastByte d.span).toNat ≤ (Contents.lastByte d'.span).toNat + 1 := by
    omega
  have moved : lineAt bytes _ ≤ lineAt bytes _ := Extent.lineAt_mono toNat_le
  rw [Extent.lineAt_succ] at moved
  split at moved <;> omega

/-- A label that a window reaches is reached by a window on more labels with more context. -/
theorem Sound.touches_of_more (le_before : before ≤ before') (le_after : after ≤ after')
    (more : before < before' ∨ after < after') (sound : d.Sound bytes before after)
    (sound' : d'.Sound bytes before' after') (within : d.span.Within d'.span)
    (valid : l.span.Valid) (read : Contents.read bytes l.span before after = .ok c)
    (read' : Contents.read bytes l.span before' after' = .ok c')
    (touches : c.line ≤ d.contents.reach) : c'.line ≤ d'.contents.reach := by
  have inside := valid.inside (Contents.stop_le_of_read read)
  rw [(Contents.line_reach_of_read inside read).1,
    (Contents.line_reach_of_read sound.inside sound.read).2] at touches
  rw [(Contents.line_reach_of_read inside read').1,
    (Contents.line_reach_of_read sound'.inside sound'.read).2]
  refine Contents.sub_le_bottom le_before le_after more ?_
    (sound.lineAt_lastByte_le sound' within) touches
  apply Contents.lineAt_le_fullLines
  have length := inside.length
  have stop := inside.stop
  have stop_eq := Span.stop_eq l.span
  omega

end Draft

/-! ## Windows in hand with less context and with more -/

/-- A window in hand that has the labels of another one, and in front of them those of finished
windows. -/
structure Draft.TakesIn (front : List (Window Int)) (d d' : Draft Int) : Prop where
  within : d.span.Within d'.span
  labels_eq : d'.labels = front.flatMap Window.labels ++ d.labels

namespace Draft

variable {d d' : Draft Int} {front : List (Window Int)} {l : Label Int} {u u' : Span Int}
  {c c' : Contents Int}

theorem takesIn_ofLabel (l : Label Int) (c c' : Contents Int) :
    TakesIn [] (ofLabel l c) (ofLabel l c') :=
  ⟨⟨Int.le_refl _, Int.le_refl _⟩, rfl⟩

theorem TakesIn.extend (takes : TakesIn front d d') (union : d.span.union l.span = .ok u)
    (union' : d'.span.union l.span = .ok u') (c c' : Contents Int) :
    TakesIn front (d.extend l u c) (d'.extend l u' c') := by
  refine ⟨takes.within.union union union', ?_⟩
  rw [labels_extend, labels_extend, takes.labels_eq, List.append_assoc]

theorem TakesIn.labels_of_finish {w w' : Window Int} (takes : TakesIn front d d')
    (finished : d.finish bytes = .ok w) (finished' : d'.finish bytes = .ok w') :
    w'.labels = (front ++ [w]).flatMap Window.labels := by
  rw [(of_finish_eq_ok finished').2.1, takes.labels_eq, List.flatMap_append,
    List.flatMap_singleton, (of_finish_eq_ok finished).2.1]

/-- A window that is finished with less context is taken in with more. -/
theorem TakesIn.finish {w : Window Int} (takes : TakesIn front d d')
    (finished : d.finish bytes = .ok w) (union' : d'.span.union l.span = .ok u')
    (c c' : Contents Int) : TakesIn (front ++ [w]) (ofLabel l c) (d'.extend l u' c') := by
  refine ⟨Span.within_union union', ?_⟩
  rw [labels_extend, takes.labels_eq, List.flatMap_append, List.flatMap_singleton,
    (of_finish_eq_ok finished).2.1]
  rfl

end Draft

/-! ## Windows made of windows -/

/-- Windows each of which has the labels of a run of other windows, one run after the other and none
left out. -/
inductive Window.Unites : List (Window Int) → List (Window Int) → Prop
  | nil : Unites [] []
  | cons {run rest : List (Window Int)} {w : Window Int} {others : List (Window Int)}
      (some_run : run ≠ []) (labels_eq : w.labels = run.flatMap Window.labels)
      (behind : Unites rest others) : Unites (run ++ rest) (w :: others)

namespace Window.Unites

variable {windows others : List (Window Int)}

theorem refl (windows : List (Window Int)) : Unites windows windows := by
  induction windows with
  | nil => exact .nil
  | cons w rest ih => exact @cons [w] rest w rest (by simp) (by simp) ih

theorem length_le (unites : Unites windows others) : others.length ≤ windows.length := by
  induction unites with
  | nil => exact Nat.le_refl _
  | cons some_run _ _ ih =>
    have nonempty := List.length_pos_iff.mpr some_run
    rw [List.length_append, List.length_cons]
    omega

/-- Labels that share a window share the window that it became a part of. -/
theorem exists_labels_subset (unites : Unites windows others) :
    ∀ w ∈ windows, ∃ w' ∈ others, w.labels ⊆ w'.labels := by
  induction unites with
  | nil => simp
  | @cons run rest v others some_run labels_eq behind ih =>
    intro w member
    rcases List.mem_append.mp member with member | member
    · refine ⟨v, List.mem_cons_self, fun l l_member => ?_⟩
      rw [labels_eq]
      exact List.mem_flatMap.mpr ⟨w, member, l_member⟩
    · obtain ⟨w', w'_member, subset⟩ := ih w member
      exact ⟨w', List.mem_cons_of_mem _ w'_member, subset⟩

end Window.Unites

namespace Merge

variable {labels : List (Label Int)} {m m' : Merge Int}

theorem not_exceeds_of_read {l : Label Int} {c : Contents Int}
    (read : Contents.read bytes l.span before after = .ok c) :
    ¬(bytes.length : Int) < l.span.stop :=
  Int.not_lt.mpr (Contents.stop_le_of_read read)

/-- A window in hand with more context goes on to take in all that one with less context does, and
the windows that are finished on the way. -/
theorem Gathers.unites_from {d d' : Draft Int} {front : List (Window Int)}
    (le_before : before ≤ before') (le_after : after ≤ after')
    (more : before < before' ∨ after < after') (valid : ∀ l ∈ labels, l.span.Valid)
    (gathers : Gathers bytes before after (some d) labels m)
    (gathers' : Gathers bytes before' after' (some d') labels m')
    (takes : Draft.TakesIn front d d') : Window.Unites (front ++ m.windows) m'.windows := by
  induction labels generalizing d d' front m m' with
  | nil =>
    cases gathers with
    | last _ finished =>
      cases gathers' with
      | last _ finished' =>
        have united := Window.Unites.cons (by simp) (takes.labels_of_finish finished finished') .nil
        rwa [List.append_nil] at united
  | cons l rest ih =>
    have l_valid := valid l List.mem_cons_self
    have rest_valid : ∀ k ∈ rest, k.span.Valid := fun k member =>
      valid k (List.mem_cons_of_mem _ member)
    cases gathers with
    | refuse beyond others =>
      cases gathers' with
      | refuse _ others' =>
        have united := ih rest_valid others others' takes
        exact united
      | grow _ read' => exact absurd beyond (not_exceeds_of_read read')
      | part _ read' => exact absurd beyond (not_exceeds_of_read read')
    | grow sound read touches union reread others =>
      cases gathers' with
      | refuse beyond => exact absurd beyond (not_exceeds_of_read read)
      | grow _ _ _ union' _ others' =>
        exact ih rest_valid others others' (takes.extend union union' _ _)
      | part sound' read' apart' =>
        have touches' := sound.touches_of_more le_before le_after more sound' takes.within l_valid
          read read' touches
        exact absurd touches' (Nat.not_le_of_lt apart')
    | part _ read _ finished others =>
      cases gathers' with
      | refuse beyond => exact absurd beyond (not_exceeds_of_read read)
      | grow _ _ _ union' _ others' =>
        have united := ih rest_valid others others' (takes.finish finished union' _ _)
        rwa [List.append_assoc] at united
      | part _ _ _ finished' others' =>
        have united := ih rest_valid others others' (Draft.takesIn_ofLabel l _ _)
        have joined := united.cons (by simp) (takes.labels_of_finish finished finished')
        rwa [List.append_assoc] at joined

theorem Gathers.unites (le_before : before ≤ before') (le_after : after ≤ after')
    (more : before < before' ∨ after < after') (valid : ∀ l ∈ labels, l.span.Valid)
    (gathers : Gathers bytes before after none labels m)
    (gathers' : Gathers bytes before' after' none labels m') :
    Window.Unites m.windows m'.windows := by
  induction labels generalizing m m' with
  | nil =>
    cases gathers
    cases gathers'
    exact .nil
  | cons l rest ih =>
    have rest_valid : ∀ k ∈ rest, k.span.Valid := fun k member =>
      valid k (List.mem_cons_of_mem _ member)
    cases gathers with
    | refuse beyond others =>
      cases gathers' with
      | refuse _ others' =>
        have united := ih rest_valid others others'
        exact united
      | start read' => exact absurd beyond (not_exceeds_of_read read')
    | start read others =>
      cases gathers' with
      | refuse beyond => exact absurd beyond (not_exceeds_of_read read)
      | start read' others' =>
        exact unites_from le_before le_after more rest_valid others others'
          (Draft.takesIn_ofLabel l _ _)

/-- With more lines of context on either side or on both, every window is made of whole windows
with less context, in their order.  So labels that share a window go on to share one, and there are
no more windows than there were. -/
theorem context_only_unites (bytes : List UInt8) (labels : List (Label Int))
    (before after before' after' : Nat) (le_before : before ≤ before') (le_after : after ≤ after')
    (valid : ∀ l ∈ labels, l.span.Valid) :
    ∃ m m', ofLabels bytes labels before after = .ok m ∧
      ofLabels bytes labels before' after' = .ok m' ∧
      Window.Unites m.windows m'.windows ∧
      (∀ w ∈ m.windows, ∀ k ∈ w.labels, ∀ l ∈ w.labels,
        ∃ w' ∈ m'.windows, k ∈ w'.labels ∧ l ∈ w'.labels) ∧
      m'.windows.length ≤ m.windows.length := by
  obtain ⟨m, gathered, gathers⟩ := exists_gathers valid bytes before after
  obtain ⟨m', gathered', gathers'⟩ := exists_gathers valid bytes before' after'
  have united : Window.Unites m.windows m'.windows := by
    by_cases more : before < before' ∨ after < after'
    · refine gathers.unites le_before le_after more (fun l member => ?_) gathers'
      exact valid l ((Label.sort_stablySorted labels).perm.mem_iff.mp member)
    · obtain rfl : before = before' := by omega
      obtain rfl : after = after' := by omega
      obtain rfl : m = m' := by
        rw [gathered] at gathered'
        exact Except.ok.inj gathered'
      exact .refl _
  refine ⟨m, m', gathered, gathered', united, ?_, united.length_le⟩
  intro w member k k_member l l_member
  obtain ⟨w', w'_member, subset⟩ := united.exists_labels_subset w member
  exact ⟨w', w'_member, subset k_member, subset l_member⟩

/-- Labels on the first, the third and the sixth of six lines, the second of them a point: with one
line of context on each side the first two share a window, which ends with the third line. -/
theorem context_only_unites_three :
    0 ≤ 1 ∧ 0 ≤ 1 ∧
      (∀ l ∈ [(⟨⟨4, 0⟩, none, none⟩ : Label Int), ⟨⟨0, 2⟩, none, none⟩, ⟨⟨10, 1⟩, none, none⟩],
        l.span.Valid) ∧
      ∃ m m',
        ofLabels [0x61, 0x0A, 0x62, 0x0A, 0x63, 0x0A, 0x64, 0x0A, 0x65, 0x0A, 0x66, 0x0A]
          [(⟨⟨4, 0⟩, none, none⟩ : Label Int), ⟨⟨0, 2⟩, none, none⟩, ⟨⟨10, 1⟩, none, none⟩]
          (0 : Nat) 0 = .ok m ∧
        ofLabels [0x61, 0x0A, 0x62, 0x0A, 0x63, 0x0A, 0x64, 0x0A, 0x65, 0x0A, 0x66, 0x0A]
          [(⟨⟨4, 0⟩, none, none⟩ : Label Int), ⟨⟨0, 2⟩, none, none⟩, ⟨⟨10, 1⟩, none, none⟩]
          (1 : Nat) 1 = .ok m' ∧
        Window.Unites m.windows m'.windows := by
  refine ⟨by decide, by decide, by decide, ?_⟩
  obtain ⟨m, m', gathered, gathered', united, -⟩ :=
    context_only_unites [0x61, 0x0A, 0x62, 0x0A, 0x63, 0x0A, 0x64, 0x0A, 0x65, 0x0A, 0x66, 0x0A]
      [⟨⟨4, 0⟩, none, none⟩, ⟨⟨0, 2⟩, none, none⟩, ⟨⟨10, 1⟩, none, none⟩] 0 0 1 1 (by decide)
      (by decide) (by decide)
  exact ⟨m, m', gathered, gathered', united⟩

end Merge

end Marginalia
