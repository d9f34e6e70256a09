import Marginalia.Proofs.Diagnostic.Building
import Marginalia.Snippet.Narration

/-!
# Tidied labels in snippets

A label is drawn from its span and its text, and it heads its window if it claims to.  Nothing
else of it is looked at, so tidied labels are sorted, read, gathered and drawn as they were before.
-/

namespace Marginalia

/-! ## Comparable places -/

namespace Number

theorem same_self {x : Number} (number : x ≠ nan) : Coordinate.Same x x := by
  cases x with
  | nan => exact absurd rfl number
  | infinity negative => cases negative <;> exact ⟨rfl, rfl⟩
  | finite q =>
    have le : (finite q).isAtMost (finite q) = true := by simp [isAtMost]
    exact ⟨le, le⟩

theorem ofRat_ne_nan (q : Rat) : ofRat q ≠ nan := by
  rw [ofRat]
  split
  · exact Number.noConfusion
  · rw [nearest]
    dsimp only
    split
    · exact Number.noConfusion
    · exact Number.noConfusion

theorem finite_minus_ne_nan (q r : Rat) : (finite q).minus (ofRat r) ≠ nan := by
  cases subtracted : ofRat r with
  | nan => exact absurd subtracted (ofRat_ne_nan r)
  | infinity negative => exact Number.noConfusion
  | finite s => exact ofRat_ne_nan (q + -s)

end Number

namespace Coordinate

/-- A kind of coordinate whose byte counts stand in order to themselves, also moved back. -/
class Comparable (κ : Type) [Coordinate κ] : Prop where
  same_self : ∀ {x : κ}, isCount x = true → Same x x
  same_back : ∀ {x : κ} (count : Nat), isCount x = true →
    Same (x - (count : κ)) (x - (count : κ))

instance : Comparable Int where
  same_self _ := ⟨Int.le_refl _, Int.le_refl _⟩
  same_back _ _ := ⟨Int.le_refl _, Int.le_refl _⟩

theorem exists_finite_of_isCount {x : Number} (count : isCount x = true) :
    ∃ q, x = .finite q := by
  cases x with
  | nan => cases count
  | infinity negative => cases count
  | finite q => exact ⟨q, rfl⟩

instance : Comparable Number where
  same_self count := by
    obtain ⟨q, rfl⟩ := exists_finite_of_isCount count
    exact Number.same_self Number.noConfusion
  same_back n count := by
    obtain ⟨q, rfl⟩ := exists_finite_of_isCount count
    exact Number.same_self (Number.finite_minus_ne_nan q _)

end Coordinate

/-! ## What is tidied -/

variable {κ : Type}

/-- A window of tidied labels. -/
def Window.tidied (w : Window κ) : Window κ :=
  { w with labels := w.labels.map Label.tidied, anchor := w.anchor.tidied }

/-- A tidied label that cannot be read. -/
def Failure.tidied (f : Failure κ) : Failure κ := { f with label := f.label.tidied }

namespace Merge

/-- Tidied labels sorted into windows. -/
def tidied (m : Merge κ) : Merge κ :=
  ⟨m.windows.map Window.tidied, m.failures.map Failure.tidied⟩

theorem map_addFailure (f : Failure κ) (merge : Except (SpanError κ) (Merge κ)) :
    (merge.map tidied).map (addFailure f.tidied) = (merge.map (addFailure f)).map tidied := by
  cases merge <;> rfl

end Merge

namespace Draft

/-- A window of tidied labels that may still grow. -/
def tidied (d : Draft κ) : Draft κ :=
  { d with first := d.first.tidied, others := d.others.map Label.tidied }

theorem labels_tidied (d : Draft κ) : d.tidied.labels = d.labels.map Label.tidied := by
  simp [labels, tidied]

/-- The label that heads a window heads it also tidied. -/
theorem anchorOf_tidied (first : Label κ) (labels : List (Label κ)) :
    anchorOf first.tidied (labels.map Label.tidied) = (anchorOf first labels).tidied := by
  have claims : (Label.isPrimary ∘ Label.tidied : Label κ → Bool) = Label.isPrimary := by
    funext l
    exact l.isPrimary_tidied
  rw [anchorOf, anchorOf, List.find?_map, claims]
  cases labels.find? Label.isPrimary <;> rfl

end Draft

theorem Callout.ofLabels_map_tidied (palette : Palette) (index : Nat) (labels : List (Label κ)) :
    ofLabels palette index (labels.map Label.tidied) = ofLabels palette index labels := by
  induction labels generalizing index with
  | nil => rfl
  | cons l rest ih =>
    rw [List.map_cons, ofLabels, ofLabels, ih]
    rfl

variable [Coordinate κ]

/-! ## Sorting -/

namespace Label

theorem isComparable_of_valid [Coordinate.Comparable κ] {l : Label κ} (valid : l.span.Valid) :
    l.isComparable = true := by
  obtain ⟨offset, length, -⟩ := valid
  exact decide_eq_true
    ⟨Coordinate.Comparable.same_self offset, Coordinate.Comparable.same_self length⟩

theorem isComparable_settle [Coordinate.Comparable κ] {l : Label κ} (bytes : List UInt8)
    (valid : l.span.Valid) : (Window.settle bytes l).isComparable = true := by
  have back (count : Nat) : isComparable
      { l with span := { l.span with offset := l.span.offset - (count : κ) } } = true :=
    decide_eq_true ⟨Coordinate.Comparable.same_back count valid.1,
      Coordinate.Comparable.same_self valid.2.1⟩
  unfold Window.settle
  dsimp only
  split
  · split
    · exact back 2
    · exact back 1
    · exact isComparable_of_valid valid
  · exact isComparable_of_valid valid

theorem settle_tidied (bytes : List UInt8) (l : Label κ) :
    Window.settle bytes l.tidied = (Window.settle bytes l).tidied := by
  unfold Window.settle
  dsimp only
  rw [span_tidied]
  by_cases atEnd : l.span.isPoint = true ∧ Coordinate.Same l.span.offset (bytes.length : κ)
  · simp only [if_pos atEnd]
    split <;> rfl
  · simp only [if_neg atEnd]

/-- Labels that can be compared are sorted by their spans alone. -/
theorem sort_map_tidied {labels : List (Label κ)} (comparable : labels.all isComparable = true) :
    sort (labels.map tidied) = (sort labels).map tidied := by
  have tidied_comparable : (labels.map tidied).all isComparable = true := by
    rw [List.all_map]
    exact comparable
  rw [sort, sort, if_pos comparable, if_pos tidied_comparable]
  refine (List.map_mergeSort fun a _ b _ => ?_).symm
  rfl

end Label

/-! ## Gathering -/

namespace Draft

variable (bytes : List UInt8) (before : Int) (after : Nat)

theorem finish_tidied (d : Draft κ) :
    d.tidied.finish bytes = (d.finish bytes).map Window.tidied := by
  have anchor_eq : anchorOf d.tidied.first d.tidied.labels =
      (anchorOf d.first d.labels).tidied := by
    rw [labels_tidied]
    exact anchorOf_tidied d.first d.labels
  rw [finish, finish, anchor_eq, Label.span_tidied, labels_tidied]
  cases Contents.locate bytes (anchorOf d.first d.labels).span.offset <;> rfl

theorem join_tidied (d : Draft κ) (l : Label κ) (contents : Contents κ) :
    d.tidied.join bytes before after l.tidied contents =
      (d.join bytes before after l contents).map (Option.map tidied) := by
  have touches_eq : d.tidied.touches contents = d.touches contents := rfl
  have union_eq : d.tidied.span.union l.tidied.span = d.span.union l.span := rfl
  rw [join, join, touches_eq, union_eq]
  split
  · cases d.span.union l.span with
    | error e => rfl
    | ok span =>
      refine congrArg Except.ok ?_
      dsimp only
      cases Contents.read bytes span before after <;> rfl
  · rfl

end Draft

namespace Merge

variable (bytes : List UInt8) (before : Int) (after : Nat)

/-- Tidied labels are gathered as they were before. -/
theorem ofSorted_tidied (current : Option (Draft κ)) (labels : List (Label κ)) :
    ofSorted bytes before after (current.map Draft.tidied) (labels.map Label.tidied) =
      (ofSorted bytes before after current labels).map tidied := by
  induction labels generalizing current with
  | nil =>
    cases current with
    | none => rfl
    | some d =>
      simp only [Option.map_some, List.map_nil, ofSorted, d.finish_tidied]
      cases d.finish bytes <;> rfl
  | cons l rest ih =>
    have fresh_eq (contents : Contents κ) : Draft.ofLabel l.tidied contents =
      (Draft.ofLabel l contents).tidied := rfl
    rw [List.map_cons, ofSorted, ofSorted, Label.span_tidied]
    cases Contents.read bytes l.span before after with
    | error e =>
      dsimp only
      rw [ih current]
      exact map_addFailure ⟨l, e⟩ _
    | ok contents =>
      dsimp only
      rw [fresh_eq]
      have others := ih (some (Draft.ofLabel l contents))
      rw [Option.map_some] at others
      cases current with
      | none => exact others
      | some d =>
        simp only [Option.map_some]
        rw [d.join_tidied, d.finish_tidied, others]
        cases d.join bytes before after l contents with
        | error e => rfl
        | ok joined =>
          cases joined with
          | some grown => exact ih (some grown)
          | none =>
            cases d.finish bytes with
            | error e => rfl
            | ok w => cases ofSorted bytes before after _ rest <;> rfl

end Merge

theorem Window.ofSource_tidied [Coordinate.Comparable κ] (source : Source)
    {labels : List (Label κ)} (valid : ∀ l ∈ labels, l.span.Valid) (before : Int) (after : Nat) :
    ofSource source (labels.map Label.tidied) before after =
      (ofSource source labels before after).map Merge.tidied := by
  have settled : (labels.map Label.tidied).map (settle source.bytes) =
      (labels.map (settle source.bytes)).map Label.tidied := by
    rw [List.map_map, List.map_map]
    exact List.map_congr_left fun l _ => l.settle_tidied source.bytes
  have comparable : (labels.map (settle source.bytes)).all Label.isComparable = true := by
    rw [List.all_map, List.all_eq_true]
    exact fun l member => Label.isComparable_settle source.bytes (valid l member)
  rw [ofSource, ofSource, settled, Merge.ofLabels, Merge.ofLabels,
    Label.sort_map_tidied comparable]
  exact Merge.ofSorted_tidied source.bytes before after none _

/-! ## Drawing -/

namespace Frame

variable (m : Manner) (source : Source)

/-- A frame of tidied labels. -/
def tidied (f : Frame κ) : Frame κ := { f with window := f.window.tidied }

theorem ofWindow_tidied (w : Window κ) :
    ofWindow m source w.tidied = (ofWindow m source w).map tidied := by
  have spans : w.tidied.labels.map Label.span = w.labels.map Label.span :=
    List.map_map
  rw [ofWindow, ofWindow, spans]
  show (w.aligned source m.before m.after).map _ = ((w.aligned source m.before m.after).map _).map _
  cases w.aligned source m.before m.after <;> rfl

theorem mapM_ofWindow_tidied (windows : List (Window κ)) :
    (windows.map Window.tidied).mapM (ofWindow m source) =
      (windows.mapM (ofWindow m source)).map (List.map tidied) := by
  induction windows with
  | nil => rfl
  | cons w rest ih =>
    rw [List.map_cons, List.mapM_cons, List.mapM_cons, ofWindow_tidied, ih]
    cases ofWindow m source w with
    | error e => rfl
    | ok f => cases rest.mapM (ofWindow m source) <;> rfl

theorem lineRows_tidied (f : Frame κ) (language : Option String) (laid : LaidLine κ) :
    lineRows m f.tidied language laid = lineRows m f language laid := by
  have callouts_eq : f.tidied.callouts m = f.callouts m :=
    Callout.ofLabels_map_tidied m.theme.palette 0 f.window.labels
  have placed : f.tidied.place m laid = f.place m laid := by
    rw [place, place, callouts_eq]
  rw [lineRows, lineRows, placed]
  rfl

theorem rows_tidied (f : Frame κ) : rows m source f.tidied = rows m source f := by
  have lines : f.tidied.layout.lines.flatMap (lineRows m f.tidied source.language) =
      f.layout.lines.flatMap (lineRows m f source.language) :=
    List.flatMap_congr fun laid _ => f.lineRows_tidied m source.language laid
  rw [rows, rows, lines]
  rfl

end Frame

namespace Narration

theorem ofLine_tidied (m : Manner) (labels : List (Label κ)) (laid : LaidLine κ) :
    ofLine m (labels.map Label.tidied) laid = ofLine m labels laid := by
  rw [ofLine, ofLine, List.zipWith_map_left]
  rfl

theorem ofFrame_tidied (m : Manner) (source : Source) (f : Frame κ) :
    ofFrame m source f.tidied = ofFrame m source f := by
  have lines : f.tidied.layout.lines.flatMap (ofLine m f.tidied.window.labels) =
      f.layout.lines.flatMap (ofLine m f.window.labels) :=
    List.flatMap_congr fun laid _ => ofLine_tidied m f.window.labels laid
  rw [ofFrame, ofFrame, lines]
  rfl

end Narration

/-! ## Snippets -/

section

variable [Coordinate.Comparable κ] (m : Manner) (source : Source) {labels : List (Label κ)}

/-- What is made of the failures and the frames of valid labels is the same for tidied labels if
it does not tell tidied ones from others. -/
theorem Frame.made_tidied {β : Type} (make : List (Failure κ) → List (Frame κ) → β)
    (same : ∀ failures frames,
      make (failures.map Failure.tidied) (frames.map tidied) = make failures frames)
    (valid : ∀ l ∈ labels, l.span.Valid) :
    (do
      let merge ← Window.ofSource source (labels.map Label.tidied) m.before m.after
      let frames ← merge.windows.mapM (ofWindow m source)
      return make merge.failures frames) =
    (do
      let merge ← Window.ofSource source labels m.before m.after
      let frames ← merge.windows.mapM (ofWindow m source)
      return make merge.failures frames) := by
  rw [Window.ofSource_tidied source valid]
  cases Window.ofSource source labels m.before m.after with
  | error e => rfl
  | ok merge =>
    have framed := mapM_ofWindow_tidied m source merge.windows
    show ((merge.windows.map Window.tidied).mapM (ofWindow m source) >>= fun frames => _) = _
    rw [framed]
    show _ = (merge.windows.mapM (ofWindow m source) >>= fun frames => _)
    cases merge.windows.mapM (ofWindow m source) with
    | error e => rfl
    | ok frames => exact congrArg Except.ok (same merge.failures frames)

/-- Valid labels are drawn the same when they are tidied. -/
theorem Snippet.rows_tidied (valid : ∀ l ∈ labels, l.span.Valid) :
    rows m source (labels.map Label.tidied) = rows m source labels := by
  refine Frame.made_tidied m source
    (fun failures frames => notices m failures ++ frames.flatMap (Frame.rows m source)) ?_ valid
  intro failures frames
  have notices_eq : notices m (failures.map Failure.tidied) = notices m failures := List.map_map
  have drawn : (frames.map Frame.tidied).flatMap (Frame.rows m source) =
      frames.flatMap (Frame.rows m source) := by
    rw [List.flatMap_map]
    exact List.flatMap_congr fun f _ => f.rows_tidied m source
  rw [notices_eq, drawn]

/-- Valid labels are told the same when they are tidied. -/
theorem Narration.lines_tidied (valid : ∀ l ∈ labels, l.span.Valid) :
    lines m source (labels.map Label.tidied) = lines m source labels := by
  let notices (failures : List (Failure κ)) : List (List Char) :=
    failures.map fun f => sentence ["    ", f.label.unreadableNotice]
  have notices_eq (failures : List (Failure κ)) :
      notices (failures.map Failure.tidied) = notices failures := List.map_map
  have made := Frame.made_tidied m source
    (fun failures frames => notices failures ++ frames.flatMap (ofFrame m source)) ?_ valid
  · exact made
  · intro failures frames
    have told : (frames.map Frame.tidied).flatMap (ofFrame m source) =
        frames.flatMap (ofFrame m source) := by
      rw [List.flatMap_map]
      exact List.flatMap_congr fun f _ => ofFrame_tidied m source f
    rw [notices_eq, told]

end

end Marginalia
