import Marginalia.Proofs.Diagnostic.Places
import Marginalia.Report.Handler

/-!
# Nested reports

Both handlers go through the tree of a diagnostic place by place, down to the limit and each place
once.  What they tell there is the diagnostic with the nearest source at or above it, and at the
limit how many diagnostics are left out below.  So they never look below the limit, and trees that
differ only there make the same text.
-/

namespace Marginalia

variable {κ : Type}

/-! ## Outlines by places -/

namespace Report

open Diagnostic (at? at?_cons places sourceAt_nil sourceAt_cons)

/-- What the outline of a tree at a depth, below a diagnostic with a source, tells at a place. -/
def entriesAt (limit depth : Nat) (inherited : Option Source) (report : Report κ)
    (place : List Nat) : List (Entry κ) :=
  match report.at? place with
  | none => []
  | some d =>
    .told (depth + place.length) d.facts ((report.sourceAt place).or inherited) ::
      if depth + place.length = limit ∧ 0 < d.related.length then
        [.omitted limit d.related.length]
      else []

theorem outlineAll_eq_flatMap (limit depth : Nat) (inherited : Option Source)
    (reports : List (Report κ)) :
    outlineAll limit depth inherited reports =
      reports.flatMap (outlineFrom limit depth inherited) := by
  induction reports with
  | nil => rfl
  | cons report rest ih => rw [outlineAll, ih, List.flatMap_cons]

/-- Above the limit the related diagnostics follow. -/
theorem outlineFrom_of_lt {limit depth : Nat} (inherited : Option Source) (report : Report κ)
    (lt : depth < limit) :
    outlineFrom limit depth inherited report =
      .told depth report.facts (report.facts.source.or inherited) ::
        report.related.flatMap
          (outlineFrom limit (depth + 1) (report.facts.source.or inherited)) := by
  cases report with
  | alone facts => simp [outlineFrom, Diagnostic.facts, Diagnostic.related]
  | group facts related =>
    rw [outlineFrom, if_neg (Nat.not_le_of_lt lt), outlineAll_eq_flatMap]
    cases related <;> simp [Diagnostic.facts, Diagnostic.related]

/-- At the limit they are counted. -/
theorem outlineFrom_at_limit (limit : Nat) (inherited : Option Source) (report : Report κ) :
    outlineFrom limit limit inherited report = entriesAt limit limit inherited report [] := by
  cases report with
  | alone facts =>
    simp [outlineFrom, entriesAt, at?, sourceAt_nil, Diagnostic.facts, Diagnostic.related]
  | group facts related =>
    cases related <;>
      simp [outlineFrom, entriesAt, at?, sourceAt_nil, Diagnostic.facts, Diagnostic.related]

theorem entriesAt_cons {limit depth : Nat} {inherited : Option Source} {report child : Report κ}
    {i : Nat} (found : report.related[i]? = some child) (place : List Nat) :
    entriesAt limit depth inherited report (i :: place) =
      entriesAt limit (depth + 1) (report.facts.source.or inherited) child place := by
  have deeper : depth + (place.length + 1) = depth + 1 + place.length := by omega
  simp only [entriesAt, at?_cons found, sourceAt_cons found, List.length_cons, deeper,
    Option.or_assoc]

theorem outlineFrom_eq_flatMap {limit depth levels : Nat} (inherited : Option Source)
    (report : Report κ) (levels_eq : depth + levels = limit) :
    outlineFrom limit depth inherited report =
      (places levels report).flatMap (entriesAt limit depth inherited report) := by
  induction levels generalizing depth inherited report with
  | zero =>
    obtain rfl : depth = limit := levels_eq
    rw [outlineFrom_at_limit, places, List.flatMap_singleton]
  | succ levels ih =>
    have lt : depth < limit := by omega
    have head : entriesAt limit depth inherited report [] =
        [.told depth report.facts (report.facts.source.or inherited)] := by
      simp [entriesAt, at?, sourceAt_nil, Nat.ne_of_lt lt]
    have numbered : report.related.flatMap
          (outlineFrom limit (depth + 1) (report.facts.source.or inherited)) =
        report.related.zipIdx.flatMap fun x =>
          outlineFrom limit (depth + 1) (report.facts.source.or inherited) x.1 := by
      conv_lhs => rw [← List.zipIdx_map_fst 0 report.related, List.flatMap_map]
    have below : ∀ x ∈ report.related.zipIdx,
        outlineFrom limit (depth + 1) (report.facts.source.or inherited) x.1 =
          ((places levels x.1).map (x.2 :: ·)).flatMap (entriesAt limit depth inherited report) := by
      rintro ⟨child, i⟩ member
      have found := List.mem_zipIdx_iff_getElem?.mp member
      rw [List.flatMap_map, ih _ child (by omega)]
      simp only [entriesAt_cons found]
    rw [outlineFrom_of_lt inherited report lt, numbered, List.flatMap_congr below, places,
      List.flatMap_cons, head, List.flatMap_assoc, List.singleton_append]

end Report

/-! ## Handlers -/

namespace Handler

variable [Coordinate κ]

/-- The settings of a handler. -/
def settings : Handler → Settings
  | graphical handler => handler.settings
  | narrated settings => settings

/-- The lines of an entry. -/
def entry (h : Handler) (e : Entry κ) : Except (SpanError κ) (List (List Char)) :=
  match h with
  | graphical handler => Graphical.entry handler.settings e
  | narrated settings => Narrated.entry settings e

/-- The lines of what there is to show. -/
def snippet (h : Handler) (e : Entry κ) : Except (SpanError κ) (List (List Char)) :=
  match h with
  | graphical handler => Graphical.snippet handler.settings e
  | narrated settings => Narrated.snippet settings e

/-- The lines that show labels on a source. -/
def shown (h : Handler) (source : Source) (labels : List (Label κ)) :
    Except (SpanError κ) (List (List Char)) :=
  match h with
  | graphical handler =>
    (Snippet.rows handler.settings.manner source labels).map (·.map Row.painted)
  | narrated settings => Narration.lines settings.manner source labels

/-- The line that tells how many diagnostics are left out. -/
def omission (h : Handler) (count : Nat) : List Char :=
  let lead := match h with
    | graphical _ => "  ... "
    | narrated _ => ""
  (lead ++ (toString count ++ (" related diagnostic(s) omitted (nesting limit " ++
    (toString h.settings.depthLimit ++ ")")))).toList

/-- The lines of the diagnostic at a place of a tree, with the nearest source at or above it, and at
the limit the notice about those below. -/
def linesAt (h : Handler) (report : Report κ) (place : List Nat) :
    Except (SpanError κ) (List (List Char)) :=
  match report.at? place with
  | none => .ok []
  | some d =>
    (h.entry (.told place.length d.facts (report.sourceAt place))).map (· ++
      if place.length = h.settings.depthLimit ∧ 0 < d.related.length then
        [[], h.omission d.related.length]
      else [])

theorem entry_omitted (h : Handler) (depth count : Nat) :
    h.entry (.omitted depth count : Entry κ) = .ok [[], h.omission count] := by
  cases h <;> simp [entry, Graphical.entry, Narrated.entry, omission, settings, String.join, pure,
    Except.pure]

theorem lines_eq (h : Handler) (report : Report κ) :
    h.lines report = List.flatten <$> (report.outline h.settings.depthLimit).mapM h.entry := by
  cases h <;> rfl

theorem linesAt_eq (h : Handler) (report : Report κ) (place : List Nat) :
    h.linesAt report place =
      List.flatten <$> (report.entriesAt h.settings.depthLimit 0 none place).mapM h.entry := by
  unfold linesAt Report.entriesAt
  cases report.at? place with
  | none => rfl
  | some d =>
    simp only [Nat.zero_add, Option.or_none, List.mapM_cons]
    cases h.entry (.told place.length d.facts (report.sourceAt place)) with
    | error e => rfl
    | ok lines =>
      split
      · rw [List.mapM_cons, entry_omitted]
        simp [bind, Except.bind, pure, Except.pure, Except.map, Functor.map]
      · simp [bind, Except.bind, pure, Except.pure, Except.map, Functor.map]

/-- What is told place by place is told entry by entry. -/
theorem flatten_mapM_flatMap {ε α β γ : Type} (f : β → Except ε (List γ)) (g : α → List β)
    (as : List α) :
    List.flatten <$> (as.flatMap g).mapM f =
      List.flatten <$> as.mapM fun a => List.flatten <$> (g a).mapM f := by
  induction as with
  | nil => rfl
  | cons a rest ih =>
    -- what is told of the first goes in front on both sides
    have tail := congrArg
      (fun told => (List.flatten <$> (g a).mapM f) >>= fun front => (front ++ ·) <$> told) ih
    simp only [List.flatMap_cons, List.mapM_append, List.mapM_cons, map_bind, bind_map_left,
      bind_pure_comp, Functor.map_map, List.flatten_append, List.flatten_cons] at tail ⊢
    exact tail

theorem lines_eq_places (h : Handler) (report : Report κ) :
    h.lines report =
      List.flatten <$> (report.places h.settings.depthLimit).mapM (h.linesAt report) := by
  rw [lines_eq, Report.outline, Report.outlineFrom_eq_flatMap none report (Nat.zero_add _),
    flatten_mapM_flatMap]
  simp only [← linesAt_eq]

/-! ## Labels on a source -/

theorem shown_nil (h : Handler) (source : Source) :
    h.shown source ([] : List (Label κ)) = .ok [] := by
  have sorted : Label.sort ([] : List (Label κ)) = [] := by simp [Label.sort]
  cases h <;>
    simp [shown, Snippet.rows, Narration.lines, Window.ofSource, Merge.ofLabels, sorted,
      Merge.ofSorted, Snippet.notices, bind, Except.bind, pure, Except.pure, Except.map]

/-- The lines of a snippet are those that show the labels, and there are none without a source. -/
theorem snippet_eq (h : Handler) (depth : Nat) (facts : Statement κ) (source : Option Source) :
    h.snippet (.told depth facts source) =
      source.elim (.ok []) (h.shown · facts.allLabels) := by
  cases source with
  | none => cases h <;> rfl
  | some source =>
    by_cases empty : facts.allLabels = []
    · rw [Option.elim_some, empty, shown_nil]
      cases h <;> simp [snippet, Graphical.snippet, Narrated.snippet, Entry.shown?, empty]
    · cases h <;> simp [snippet, Graphical.snippet, Narrated.snippet, Entry.shown?, empty, shown]

/-- All that the source of a diagnostic does is to show its labels. -/
theorem exists_entry_told (h : Handler) (depth : Nat) (facts : Statement κ) :
    ∃ front back, ∀ source : Option Source,
      h.entry (.told depth facts source) =
        (source.elim (.ok []) (h.shown · facts.allLabels)).map (front ++ · ++ back) := by
  cases h with
  | graphical handler =>
    let s := handler.settings
    refine ⟨(if depth = 0 then [] else [[]]) ++ Graphical.header s depth facts ++
      Graphical.message s facts ++ Graphical.causes s (Graphical.tone s facts)
        (Link.told facts.cause), Graphical.help s facts ++ Graphical.footer s depth,
      fun source => ?_⟩
    rw [← snippet_eq, entry, Graphical.entry, snippet]
    cases Graphical.snippet s (.told depth facts source) with
    | error e => rfl
    | ok drawn => simp [s, bind, Except.bind, Except.map, pure, Except.pure]
  | narrated settings =>
    refine ⟨(if depth = 0 then [] else [[]]) ++ Narrated.opening facts, Narrated.closing facts,
      fun source => ?_⟩
    rw [← snippet_eq]
    rfl

/-! ## Trees that agree -/

theorem linesAt_of_agrees (h : Handler) {report other : Report κ} {levels : Nat}
    (agrees : report.Agrees levels other) {place : List Nat} (length_le : place.length ≤ levels) :
    h.linesAt other place = h.linesAt report place := by
  have same := agrees place length_le
  unfold linesAt
  rw [agrees.sourceAt_eq length_le]
  cases found : report.at? place with
  | none =>
    cases found' : other.at? place with
    | none => rfl
    | some e => simp [found, found'] at same
  | some d =>
    cases found' : other.at? place with
    | none => simp [found, found'] at same
    | some e =>
      simp only [found, found', Option.map_some, Option.some.injEq, Prod.mk.injEq] at same
      simp only [same.1, same.2]

theorem lines_of_agrees (h : Handler) {report other : Report κ}
    (agrees : report.Agrees h.settings.depthLimit other) : h.lines other = h.lines report := by
  have lines_eq : (report.places h.settings.depthLimit).map (h.linesAt other) =
      (report.places h.settings.depthLimit).map (h.linesAt report) :=
    List.map_congr_left fun place member =>
      h.linesAt_of_agrees agrees (Diagnostic.mem_places_iff.mp member).1
  have told_eq := congrArg (List.mapM id) lines_eq
  rw [List.mapM_map, List.mapM_map] at told_eq
  rw [lines_eq_places, lines_eq_places, ← agrees.places_eq]
  exact congrArg (List.flatten <$> ·) told_eq

/-- Both handlers go through a tree of diagnostics in its order, down to the limit and through each
place once, and tell of the diagnostic there with the nearest source at or above it; at the limit a
notice about those below follows.  Nothing else of the tree is told, and the source of a diagnostic
serves to show its labels and for nothing else. -/
theorem handlers_follow_tree (limit : Nat) (report : Report κ) :
    (∃ places : List (List Nat), places.Pairwise (· < ·) ∧
      (∀ place, place ∈ places ↔ place.length ≤ limit ∧ (report.at? place).isSome = true) ∧
      ∀ h : Handler, h.settings.depthLimit = limit →
        h.lines report = List.flatten <$> places.mapM (h.linesAt report)) ∧
    (∀ other : Report κ, report.Agrees limit other →
      ∀ h : Handler, h.settings.depthLimit = limit → h.text other = h.text report) ∧
    ∀ (h : Handler) (depth : Nat) (facts : Statement κ), ∃ front back, ∀ source : Option Source,
      h.entry (.told depth facts source) =
        (source.elim (.ok []) (h.shown · facts.allLabels)).map (front ++ · ++ back) := by
  refine ⟨⟨report.places limit, report.places_ascending limit, fun place => ?_, ?_⟩, ?_, ?_⟩
  · exact Diagnostic.mem_places_iff
  · rintro h rfl
    exact h.lines_eq_places report
  · rintro other agrees h rfl
    rw [text, text, h.lines_of_agrees agrees]
  · exact exists_entry_told

/-- A diagnostic below one below another, which tells nothing but a message. -/
def threeDeep (message : String) : Report Int :=
  .group ⟨"first", none, none, none, none, none, none, []⟩
    [.group ⟨"second", none, none, none, none, none, none, []⟩
      [.alone ⟨message, none, none, none, none, none, none, []⟩]]

/-- Trees that differ on their third level make the same text with a limit in front of it. -/
theorem handlers_follow_tree_above_difference :
    (threeDeep "third").Agrees 1 (threeDeep "other") ∧
      ∀ h : Handler, h.settings.depthLimit = 1 →
        h.text (threeDeep "other") = h.text (threeDeep "third") := by
  have agrees : (threeDeep "third").Agrees 1 (threeDeep "other") := by
    intro place length_le
    match place with
    | [] => rfl
    | [i] => cases i <;> rfl
    | i :: j :: rest =>
      simp only [List.length_cons] at length_le
      omega
  exact ⟨agrees, (handlers_follow_tree 1 _).2.1 _ agrees⟩

end Handler

end Marginalia
