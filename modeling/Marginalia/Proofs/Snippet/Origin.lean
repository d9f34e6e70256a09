import Marginalia.Proofs.Snippet.Gathering
import Marginalia.Proofs.Sorting.Elements
import Marginalia.Proofs.Source.Chain
import Marginalia.Snippet.Drawing

/-!
# Where the text of a snippet comes from

Whether its labels are valid or not, a snippet shows nothing but them and its source: the labels of
its windows and notices are among those that were given, and the lines are cut from bytes of the
source.
-/

namespace Marginalia

variable {κ : Type} [Coordinate κ] {bytes : List UInt8}

theorem Label.sort_subset (labels : List (Label κ)) : sort labels ⊆ labels := by
  unfold sort
  split
  · exact (List.mergeSort_perm labels precedes).subset
  · exact Sorting.sortRuns_subset labels

/-! ## What is read -/

theorem Contents.data_subset {s : Span κ} {before : Int} {after : Nat} {c : Contents κ}
    (read : Contents.read bytes s before after = .ok c) : c.data ⊆ bytes := by
  unfold Contents.read at read
  split at read
  · cases read
  · split at read
    · cases read
      exact List.Subset.trans (List.take_subset _ _) (List.drop_subset _ _)
    · cases read

theorem Line.content_subset {c : Contents κ} {size : Nat} {line : Line κ}
    (member : line ∈ scan c size) : line.content ⊆ Utf8.decode c.data := by
  have placed (number : Nat) (offset : κ) (pieces : List (List Char)) :
      ∀ line ∈ place size number offset pieces,
        ∃ piece ∈ pieces, line.content = withoutTerminator piece := by
    induction pieces generalizing number offset with
    | nil => simp [place]
    | cons piece rest ih =>
      intro line member
      rcases List.mem_cons.mp member with rfl | member
      · exact ⟨piece, .head _, rfl⟩
      · obtain ⟨other, inside, eq⟩ := ih _ _ line member
        exact ⟨other, .tail _ inside, eq⟩
  obtain ⟨piece, inside, eq⟩ := placed _ _ _ line member
  have kept : line.content ⊆ piece := by
    rw [eq]
    have ends := ends_withoutTerminator piece
    generalize withoutTerminator piece = content at ends
    cases ends with
    | returned | fed | unended => simp
  intro d d_member
  rw [← flatten_pieces (Utf8.decode c.data)]
  exact List.mem_flatten.mpr ⟨piece, inside, kept d_member⟩

/-! ## Windows -/

/-- Labels that all have a property, and contents out of some bytes. -/
structure Shown (P : Label κ → Prop) (bytes : List UInt8) (labels : List (Label κ))
    (c : Contents κ) : Prop where
  labels : ∀ l ∈ labels, P l
  data : c.data ⊆ bytes

variable {P : Label κ → Prop} {before : Int} {after : Nat}

namespace Draft

variable {d : Draft κ} {l : Label κ} {c : Contents κ}

theorem shown_ofLabel (property : P l)
    (read : Contents.read bytes l.span before after = .ok c) :
    Shown P bytes (ofLabel l c).labels c :=
  ⟨by simpa [labels, ofLabel] using property, Contents.data_subset read⟩

theorem shown_of_join {grown : Draft κ} (shown : Shown P bytes d.labels d.contents)
    (property : P l) (joined : d.join bytes before after l c = .ok (some grown)) :
    Shown P bytes grown.labels grown.contents := by
  obtain ⟨u, read, -, reread, rfl⟩ := of_join_eq_some joined
  refine ⟨fun k member => ?_, Contents.data_subset reread⟩
  rw [labels_extend] at member
  rcases List.mem_append.mp member with member | member
  · exact shown.labels k member
  · cases List.mem_singleton.mp member
    exact property

theorem shown_of_finish {w : Window κ} (shown : Shown P bytes d.labels d.contents)
    (finished : d.finish bytes = .ok w) : Shown P bytes w.labels w.contents := by
  obtain ⟨-, labels_eq, contents_eq, -⟩ := of_finish_eq_ok finished
  rwa [labels_eq, contents_eq]

end Draft

/-- The labels of the windows are those that were given, and in their order. -/
theorem Merge.labels_sublist {current : Option (Draft κ)} {labels : List (Label κ)} {m : Merge κ}
    (made : ofSorted bytes before after current labels = .ok m) :
    (m.windows.flatMap Window.labels).Sublist (current.elim [] Draft.labels ++ labels) := by
  induction labels generalizing current m with
  | nil =>
    cases current with
    | none =>
      cases made
      exact List.Sublist.refl _
    | some d =>
      obtain ⟨w, finished, rfl⟩ := of_map_eq_ok made
      simp [(Draft.of_finish_eq_ok finished).2.1]
  | cons l rest ih =>
    rw [ofSorted] at made
    split at made
    · obtain ⟨others, gathered, rfl⟩ := of_map_eq_ok made
      exact (ih gathered).trans ((List.sublist_cons_self l rest).append_left _)
    · cases current with
      | none => exact ih made
      | some d =>
        obtain ⟨joined, joined_eq, made⟩ := of_bind_eq_ok made
        cases joined with
        | some grown =>
          obtain ⟨_, _, -, -, rfl⟩ := Draft.of_join_eq_some joined_eq
          have kept := ih made
          rw [Option.elim_some, Draft.labels_extend, List.append_assoc] at kept
          exact kept
        | none =>
          obtain ⟨w, finished, made⟩ := of_bind_eq_ok made
          obtain ⟨others, gathered, made⟩ := of_bind_eq_ok made
          cases made
          rw [addWindow, List.flatMap_cons, (Draft.of_finish_eq_ok finished).2.1]
          exact (ih gathered).append_left d.labels

/-- Whatever the labels are, each step shows one of them and reads the bytes. -/
theorem Merge.shown_of_ofSorted {current : Option (Draft κ)} {labels : List (Label κ)}
    {m : Merge κ} (made : ofSorted bytes before after current labels = .ok m)
    (held : ∀ d, current = some d → Shown P bytes d.labels d.contents)
    (all : ∀ l ∈ labels, P l) :
    (∀ w ∈ m.windows, Shown P bytes w.labels w.contents) ∧ ∀ f ∈ m.failures, P f.label := by
  induction labels generalizing current m with
  | nil =>
    cases current with
    | none =>
      cases made
      simp
    | some d =>
      rw [ofSorted] at made
      obtain ⟨w, finished, rfl⟩ := of_map_eq_ok made
      simpa using Draft.shown_of_finish (held d rfl) finished
  | cons l rest ih =>
    obtain ⟨property, all⟩ := List.forall_mem_cons.mp all
    rw [ofSorted] at made
    split at made
    · obtain ⟨others, gathered, rfl⟩ := of_map_eq_ok made
      obtain ⟨windows, failures⟩ := ih gathered held all
      exact ⟨windows, List.forall_mem_cons.mpr ⟨property, failures⟩⟩
    · rename_i c read
      have fresh : ∀ d, some (Draft.ofLabel l c) = some d → Shown P bytes d.labels d.contents := by
        rintro _ ⟨⟩
        exact Draft.shown_ofLabel property read
      cases current with
      | none => exact ih made fresh all
      | some d =>
        obtain ⟨joined, joined_eq, made⟩ := of_bind_eq_ok made
        cases joined with
        | some grown =>
          refine ih made ?_ all
          rintro _ ⟨⟩
          exact Draft.shown_of_join (held d rfl) property joined_eq
        | none =>
          obtain ⟨w, finished, made⟩ := of_bind_eq_ok made
          obtain ⟨others, gathered, made⟩ := of_bind_eq_ok made
          cases made
          obtain ⟨windows, failures⟩ := ih gathered fresh all
          exact ⟨List.forall_mem_cons.mpr ⟨Draft.shown_of_finish (held d rfl) finished, windows⟩,
            failures⟩

namespace Window

variable {source : Source}

/-- The windows of a source show the labels that were given and bytes of the source. -/
theorem shown_of_ofSource {labels : List (Label κ)} {m : Merge κ}
    (made : ofSource source labels before after = .ok m)
    (all : ∀ l ∈ labels, P (settle source.bytes l)) :
    (∀ w ∈ m.windows, Shown P source.bytes w.labels w.contents) ∧ ∀ f ∈ m.failures, P f.label := by
  refine Merge.shown_of_ofSorted made (by simp) fun l member => ?_
  obtain ⟨given, given_member, rfl⟩ := List.mem_map.mp (Label.sort_subset _ member)
  exact all given given_member

theorem data_subset_of_aligned {w : Window κ} {c : Contents κ}
    (within : w.contents.data ⊆ source.bytes) (aligned : w.aligned source before after = .ok c) :
    c.data ⊆ source.bytes := by
  unfold Window.aligned at aligned
  split at aligned
  · cases aligned
    exact within
  · exact Contents.data_subset aligned

end Window

/-- The lines of a frame are cut from bytes of its source. -/
theorem Frame.content_subset {m : Manner} {source : Source} {w : Window κ} {f : Frame κ}
    (framed : ofWindow m source w = .ok f) (within : w.contents.data ⊆ source.bytes) :
    f.window = w ∧ ∃ data : List UInt8, data ⊆ source.bytes ∧
      ∀ laid ∈ f.layout.lines, laid.line.content ⊆ Utf8.decode data := by
  obtain ⟨c, aligned, rfl⟩ := of_map_eq_ok framed
  refine ⟨rfl, c.data, Window.data_subset_of_aligned within aligned, fun laid member => ?_⟩
  obtain ⟨line, line_member, rfl⟩ := List.mem_map.mp member
  exact Line.content_subset line_member

end Marginalia
