import Mathlib.Data.List.Forall2
import Mathlib.Data.List.Nodup
import Marginalia.Proofs.Snippet.Separation
import Marginalia.Report.Handler

/-!
# Labels in another order

What becomes of labels is up to their spans, and labels in order have the same spans whatever order
they came in.  Labels on one span never stand in two windows, so the windows of labels in another
order have the labels that they had, those on equal spans perhaps changed about.  The labels that
could head a window are on one span too, so its header does not change either.
-/

namespace Marginalia

variable {bytes : List UInt8} {before after : Nat}

/-! ## Labels that change places -/

namespace Label

variable {labels others : List (Label Int)}

theorem spans_sort_eq (perm : others.Perm labels) :
    (sort others).map span = (sort labels).map span := by
  have sorted := sort_stablySorted labels
  have sorted' := sort_stablySorted others
  refine List.Perm.eq_of_pairwise (fun a b _ _ hab hba => Span.precedes_antisymm hab hba)
    (List.pairwise_map.mpr sorted'.ordered) (List.pairwise_map.mpr sorted.ordered) ?_
  exact ((sorted'.perm.trans perm).trans sorted.perm.symm).map span

/-- Where no two labels are on one span there is nothing to change about. -/
theorem sort_eq_of_perm (perm : others.Perm labels) (distinct : (labels.map span).Nodup) :
    sort others = sort labels := by
  have sorted := sort_stablySorted labels
  have sorted' := sort_stablySorted others
  refine List.Perm.eq_of_pairwise (fun a b a_member b_member hab hba => ?_) sorted'.ordered
    sorted.ordered ((sorted'.perm.trans perm).trans sorted.perm.symm)
  rw [(sorted'.perm.trans perm).mem_iff] at a_member
  rw [sorted.perm.mem_iff] at b_member
  exact List.inj_on_of_nodup_map distinct a_member b_member (Span.precedes_antisymm hab hba)

/-- The first label of the highest claim: a primary one if there is any, and in front of all others
with that claim. -/
def Leads (a : Label Int) (labels : List (Label Int)) : Prop :=
  a ∈ labels ∧ ∀ l ∈ labels, a.isPrimary = true ∧ l.isPrimary = false ∨
    a.isPrimary = l.isPrimary ∧ a.precedes l = true

/-- All labels that could lead are on one span. -/
theorem Leads.span_eq {a b : Label Int} (leads : a.Leads labels) (leads' : b.Leads labels) :
    b.span = a.span := by
  rcases leads.2 b leads'.1 with ⟨a_primary, b_other⟩ | ⟨same, a_le⟩
  · rcases leads'.2 a leads.1 with ⟨b_primary, -⟩ | ⟨same, -⟩
    · rw [b_other] at b_primary
      cases b_primary
    · rw [a_primary, b_other] at same
      cases same
  · rcases leads'.2 a leads.1 with ⟨b_primary, a_other⟩ | ⟨-, b_le⟩
    · rw [b_primary, a_other] at same
      cases same
    · exact Span.precedes_antisymm b_le a_le

theorem leads_of_ordered {a : Label Int}
    (ordered : labels.Pairwise fun a b => a.precedes b = true)
    (found : some a = (labels.find? isPrimary).or labels.head?) : a.Leads labels := by
  cases primary : labels.find? isPrimary with
  | some b =>
    rw [primary] at found
    cases found
    obtain ⟨a_primary, front, back, rfl, none_primary⟩ := List.find?_eq_some_iff_append.mp primary
    obtain ⟨-, behind, -⟩ := List.pairwise_append.mp ordered
    refine ⟨by simp, fun l member => ?_⟩
    cases claim : l.isPrimary with
    | false => exact .inl ⟨a_primary, rfl⟩
    | true =>
      rcases List.mem_append.mp member with member | member
      · have unclaimed := none_primary l member
        rw [claim] at unclaimed
        cases unclaimed
      · rcases List.mem_cons.mp member with rfl | member
        · exact .inr ⟨a_primary, precedes_of_span_eq rfl⟩
        · exact .inr ⟨a_primary, (List.pairwise_cons.mp behind).1 l member⟩
  | none =>
    rw [primary, Option.none_or] at found
    obtain ⟨rest, rfl⟩ := List.head?_eq_some_iff.mp found.symm
    rw [List.find?_eq_none] at primary
    have unclaimed : ∀ l ∈ a :: rest, l.isPrimary = false := fun l member => by
      simpa using primary l member
    refine ⟨List.mem_cons_self, fun l member => .inr ⟨?_, ?_⟩⟩
    · rw [unclaimed a List.mem_cons_self, unclaimed l member]
    · rcases List.mem_cons.mp member with rfl | member
      · exact precedes_of_span_eq rfl
      · exact (List.pairwise_cons.mp ordered).1 l member

end Label

/-! ## Windows told by spans -/

/-- A span covers labels by their spans alone. -/
theorem Span.Covers.of_spans {s : Span Int} {labels others : List (Label Int)}
    (covers : s.Covers labels) (same : others.map Label.span = labels.map Label.span) :
    s.Covers others := by
  have counterpart {k : Label Int} {from_list to_list : List (Label Int)} (member : k ∈ from_list)
      (eq : to_list.map Label.span = from_list.map Label.span) :
      ∃ l ∈ to_list, l.span = k.span := by
    have present := List.mem_map_of_mem (f := Label.span) member
    rw [← eq] at present
    exact List.mem_map.mp present
  constructor
  · intro l member
    obtain ⟨k, k_member, eq⟩ := counterpart member same.symm
    exact eq ▸ covers.offset_le k k_member
  · obtain ⟨k, k_member, offset_eq⟩ := covers.offset_mem
    obtain ⟨l, l_member, eq⟩ := counterpart k_member same
    exact ⟨l, l_member, eq ▸ offset_eq⟩
  · intro l member
    obtain ⟨k, k_member, eq⟩ := counterpart member same.symm
    exact eq ▸ covers.le_stop k k_member
  · obtain ⟨k, k_member, stop_eq⟩ := covers.stop_mem
    obtain ⟨l, l_member, eq⟩ := counterpart k_member same
    exact ⟨l, l_member, eq ▸ stop_eq⟩

/-- Windows in hand on the same spans. -/
structure Draft.Alike (d e : Draft Int) : Prop where
  span_eq : e.span = d.span
  contents_eq : e.contents = d.contents
  spans_eq : e.labels.map Label.span = d.labels.map Label.span

/-- Windows on the same spans. -/
structure Window.Alike (v w : Window Int) : Prop where
  span_eq : w.span = v.span
  contents_eq : w.contents = v.contents
  spans_eq : w.labels.map Label.span = v.labels.map Label.span

namespace Draft

variable {d e : Draft Int} {k l : Label Int}

theorem alike_ofLabel (same : l.span = k.span) (c : Contents Int) :
    (ofLabel k c).Alike (ofLabel l c) :=
  ⟨same, rfl, congrArg ([·]) same⟩

theorem Alike.extend (alike : d.Alike e) (same : l.span = k.span) (u : Span Int)
    (c : Contents Int) : (d.extend k u c).Alike (e.extend l u c) := by
  refine ⟨rfl, rfl, ?_⟩
  rw [labels_extend, labels_extend, List.map_append, List.map_append, alike.spans_eq,
    List.map_singleton, List.map_singleton, same]

theorem Alike.sound (alike : d.Alike e) (sound : d.Sound bytes before after) :
    e.Sound bytes before after := by
  obtain ⟨span_eq, contents_eq, spans_eq⟩ := alike
  refine ⟨?_, ?_, ?_, ?_⟩
  · rw [span_eq]
    exact sound.valid
  · have all_valid := List.forall_mem_map.mpr sound.labels_valid
    rw [← spans_eq] at all_valid
    exact List.forall_mem_map.mp all_valid
  · rw [span_eq]
    exact sound.covers.of_spans spans_eq
  · rw [span_eq, contents_eq]
    exact sound.read

theorem Alike.exists_finish {w : Window Int} (alike : d.Alike e)
    (sound : d.Sound bytes before after) (finished : d.finish bytes = .ok w) :
    ∃ v, e.finish bytes = .ok v ∧ w.Alike v := by
  obtain ⟨v, finished'⟩ := (alike.sound sound).exists_finish
  obtain ⟨span_eq, labels_eq, contents_eq, -⟩ := of_finish_eq_ok finished
  obtain ⟨span_eq', labels_eq', contents_eq', -⟩ := of_finish_eq_ok finished'
  refine ⟨v, finished', ?_, ?_, ?_⟩
  · rw [span_eq', span_eq, alike.span_eq]
  · rw [contents_eq', contents_eq, alike.contents_eq]
  · rw [labels_eq', labels_eq, alike.spans_eq]

end Draft

/-- Labels on the same spans go the same way. -/
theorem Merge.Gathers.alike {current held : Option (Draft Int)} {labels others : List (Label Int)}
    {m : Merge Int} (gathers : Gathers bytes before after current labels m)
    (hands : Option.Rel Draft.Alike current held)
    (same : others.map Label.span = labels.map Label.span) :
    ∃ m', Gathers bytes before after held others m' ∧
      List.Forall₂ Window.Alike m.windows m'.windows := by
  induction gathers generalizing held others with
  | nothing =>
    cases hands
    cases List.map_eq_nil_iff.mp same
    exact ⟨_, .nothing, .nil⟩
  | last sound finished =>
    cases hands with
    | some alike =>
      cases List.map_eq_nil_iff.mp same
      obtain ⟨v, finished', w_alike⟩ := alike.exists_finish sound finished
      exact ⟨_, .last (alike.sound sound) finished', .cons w_alike .nil⟩
  | refuse beyond _ ih =>
    obtain ⟨l, rest, rfl, span_eq, rest_eq⟩ := List.map_eq_cons_iff.mp same
    obtain ⟨m', gathers', windows⟩ := ih hands rest_eq
    rw [← span_eq] at beyond
    exact ⟨_, .refuse beyond gathers', windows⟩
  | start read _ ih =>
    obtain ⟨l, rest, rfl, span_eq, rest_eq⟩ := List.map_eq_cons_iff.mp same
    cases hands
    obtain ⟨m', gathers', windows⟩ := ih (.some (Draft.alike_ofLabel span_eq _)) rest_eq
    rw [← span_eq] at read
    exact ⟨_, .start read gathers', windows⟩
  | grow sound read touches union reread _ ih =>
    obtain ⟨l, rest, rfl, span_eq, rest_eq⟩ := List.map_eq_cons_iff.mp same
    cases hands with
    | some alike =>
      obtain ⟨m', gathers', windows⟩ := ih (.some (alike.extend span_eq _ _)) rest_eq
      rw [← span_eq] at read union
      rw [← alike.span_eq] at union
      rw [← alike.contents_eq] at touches
      exact ⟨_, .grow (alike.sound sound) read touches union reread gathers', windows⟩
  | part sound read apart finished _ ih =>
    obtain ⟨l, rest, rfl, span_eq, rest_eq⟩ := List.map_eq_cons_iff.mp same
    cases hands with
    | some alike =>
      obtain ⟨m', gathers', windows⟩ := ih (.some (Draft.alike_ofLabel span_eq _)) rest_eq
      obtain ⟨v, finished', w_alike⟩ := alike.exists_finish sound finished
      rw [← span_eq] at read
      rw [← alike.contents_eq] at apart
      exact ⟨_, .part (alike.sound sound) read apart finished' gathers', .cons w_alike windows⟩

/-! ## The labels of each window -/

namespace Window

variable {v w : Window Int}

/-- Windows with a line between have no span in common. -/
theorem Above.span_ne (above : v.Above w) (made : v.MadeOfLabels bytes before after)
    (made' : w.MadeOfLabels bytes before after) :
    ∀ k ∈ v.labels, ∀ l ∈ w.labels, k.span ≠ l.span := by
  intro k k_member l l_member same
  have inside := made.valid.inside (Contents.stop_le_of_read made.read)
  have inside' := made'.valid.inside (Contents.stop_le_of_read made'.read)
  have reach_eq := (Contents.line_reach_of_read inside made.read).2
  have line_eq := (Contents.line_reach_of_read inside' made'.read).1
  -- the beginning of the lower window is at most one byte behind the last byte of the upper one
  have le_stop := made.covers.le_stop k k_member
  have offset_le := made'.covers.offset_le l l_member
  have k_length := ((Span.valid_iff _).mp (made.labels_valid k k_member)).2.1
  have k_stop := k.span.stop_eq
  have v_length := inside.length
  have v_stop := v.span.stop_eq
  have near : w.span.offset.toNat ≤ (Contents.lastByte v.span).toNat + 1 := by
    rw [Contents.lastByte_eq]
    rw [← same] at offset_le
    split <;> omega
  have lines_le : Extent.lineAt bytes w.span.offset.toNat ≤
      Extent.lineAt bytes ((Contents.lastByte v.span).toNat + 1) := Extent.lineAt_mono near
  rw [Extent.lineAt_succ] at lines_le
  rw [Contents.bottom_eq] at reach_eq
  have above : v.contents.reach < w.contents.line := above
  split at lines_le <;> omega

theorem spans_flatMap_eq {vs ws : List (Window Int)} (alike : List.Forall₂ Alike vs ws) :
    (ws.flatMap labels).map Label.span = (vs.flatMap labels).map Label.span := by
  induction alike with
  | nil => rfl
  | cons first _ ih =>
    rw [List.flatMap_cons, List.flatMap_cons, List.map_append, List.map_append, first.spans_eq, ih]

section

variable {front back : List (Label Int)} {kept : Label Int → Prop} [DecidablePred kept]
  (front_kept : ∀ l ∈ front, kept l) (back_left : ∀ l ∈ back, ¬kept l)

include front_kept back_left

private theorem filter_append_left : (front ++ back).filter (fun l => kept l) = front := by
  rw [List.filter_append, List.filter_eq_self.mpr (by simpa using front_kept),
    List.filter_eq_nil_iff.mpr (by simpa using back_left), List.append_nil]

private theorem filter_append_right : (front ++ back).filter (fun l => ¬kept l) = back := by
  rw [List.filter_append, List.filter_eq_nil_iff.mpr (by simpa using front_kept),
    List.filter_eq_self.mpr (by simpa using back_left), List.nil_append]

end

/-- If windows on the same spans have the same labels in all, and no span is in two of them, then
each has the same labels. -/
theorem labels_perm_of_alike {vs ws : List (Window Int)} (alike : List.Forall₂ Alike vs ws)
    (apart : vs.Pairwise fun v w => ∀ k ∈ v.labels, ∀ l ∈ w.labels, k.span ≠ l.span)
    (perm : (ws.flatMap labels).Perm (vs.flatMap labels)) :
    List.Forall₂ (fun v w => w.labels.Perm v.labels) vs ws := by
  induction alike with
  | nil => exact .nil
  | @cons v w vs ws first others ih =>
    obtain ⟨v_apart, vs_apart⟩ := List.pairwise_cons.mp apart
    have v_kept : ∀ l ∈ v.labels, l.span ∈ v.labels.map Label.span := fun l =>
      List.mem_map_of_mem
    have w_kept : ∀ l ∈ w.labels, l.span ∈ v.labels.map Label.span := fun l member =>
      first.spans_eq ▸ List.mem_map_of_mem member
    have vs_left : ∀ l ∈ vs.flatMap labels, l.span ∉ v.labels.map Label.span := by
      intro l member within
      obtain ⟨u, u_member, l_member⟩ := List.mem_flatMap.mp member
      obtain ⟨k, k_member, same⟩ := List.mem_map.mp within
      exact v_apart u u_member k k_member l l_member same
    have ws_left : ∀ l ∈ ws.flatMap labels, l.span ∉ v.labels.map Label.span := by
      intro l member
      have present := List.mem_map_of_mem (f := Label.span) member
      rw [spans_flatMap_eq others] at present
      obtain ⟨k, k_member, same⟩ := List.mem_map.mp present
      exact same ▸ vs_left k k_member
    rw [List.flatMap_cons, List.flatMap_cons] at perm
    have mine := perm.filter (·.span ∈ v.labels.map Label.span)
    have theirs := perm.filter (·.span ∉ v.labels.map Label.span)
    rw [filter_append_left w_kept ws_left, filter_append_left v_kept vs_left] at mine
    rw [filter_append_right w_kept ws_left, filter_append_right v_kept vs_left] at theirs
    exact .cons mine (ih vs_apart theirs)

/-- A window with its labels in another order: nothing else is changed that shows where it is. -/
structure Reordered (v w : Window Int) : Prop where
  span_eq : w.span = v.span
  contents_eq : w.contents = v.contents
  line_eq : w.line = v.line
  column_eq : w.column = v.column
  labels_perm : w.labels.Perm v.labels

theorem Alike.reordered (alike : v.Alike w) (perm : w.labels.Perm v.labels)
    (made : v.MadeOfLabels bytes before after) (made' : w.MadeOfLabels bytes before after)
    (ordered : v.labels.Pairwise fun a b => a.precedes b = true)
    (ordered' : w.labels.Pairwise fun a b => a.precedes b = true) : v.Reordered w := by
  have leads := Label.leads_of_ordered ordered made.anchor_eq
  have leads' := Label.leads_of_ordered ordered' made'.anchor_eq
  have leads' : w.anchor.Leads v.labels :=
    ⟨perm.mem_iff.mp leads'.1, fun l member => leads'.2 l (perm.mem_iff.mpr member)⟩
  have located := made'.located
  rw [leads.span_eq leads', made.located, Except.ok.injEq, Prod.mk.injEq] at located
  exact ⟨alike.span_eq, alike.contents_eq, located.1.symm, located.2.symm, perm⟩

end Window

/-! ## Snippets -/

namespace Merge

variable {labels others : List (Label Int)}

/-- Windows of labels in another order are the windows with their labels in another order. -/
theorem exists_reordered (valid : ∀ l ∈ labels, l.span.Valid) (perm : others.Perm labels)
    (bytes : List UInt8) (before after : Nat) :
    ∃ m m', ofLabels bytes labels before after = .ok m ∧
      ofLabels bytes others before after = .ok m' ∧
      List.Forall₂ Window.Reordered m.windows m'.windows ∧ m'.failures.Perm m.failures := by
  obtain ⟨m, gathered, gathers⟩ := exists_gathers valid bytes before after
  obtain ⟨m', gathers', alike⟩ := gathers.alike .none (Label.spans_sort_eq perm)
  have sorted_perm : (Label.sort others).Perm (Label.sort labels) :=
    ((Label.sort_stablySorted others).perm.trans perm).trans
      (Label.sort_stablySorted labels).perm.symm
  have above := (gathers.windows_above (sort_offsets_ascending labels) (by simp)).1
  have made := gathers.madeOfLabels
  have made' := gathers'.madeOfLabels
  have labels_eq := gathers.labels_eq
  have labels_eq' := gathers'.labels_eq
  have labels_perm : (m'.windows.flatMap Window.labels).Perm (m.windows.flatMap Window.labels) := by
    rw [labels_eq, labels_eq']
    exact sorted_perm.filter _
  have ordered : (m.windows.flatMap Window.labels).Pairwise fun a b => a.precedes b = true := by
    rw [labels_eq]
    exact (Label.sort_stablySorted labels).ordered.filter _
  have ordered' : (m'.windows.flatMap Window.labels).Pairwise fun a b => a.precedes b = true := by
    rw [labels_eq']
    exact (Label.sort_stablySorted others).ordered.filter _
  have perms := Window.labels_perm_of_alike alike (above.imp_of_mem fun v_member w_member above =>
    above.span_ne (made _ v_member) (made _ w_member)) labels_perm
  refine ⟨m, m', gathered, gathers'.ofSorted_eq, ?_, ?_⟩
  · rw [List.forall₂_iff_get] at alike perms ⊢
    refine ⟨alike.1, fun i inside inside' => ?_⟩
    exact (alike.2 i inside inside').reordered (perms.2 i inside inside')
      (made _ (List.get_mem _ _)) (made' _ (List.get_mem _ _))
      ((List.pairwise_flatMap.mp ordered).1 _ (List.get_mem _ _))
      ((List.pairwise_flatMap.mp ordered').1 _ (List.get_mem _ _))
  · rw [gathers.failures_eq, gathers'.failures_eq]
    exact (sorted_perm.filter _).map _

end Merge

/-- What a diagnostic says with other labels. -/
def Facts.withLabels (labels : List (Label Int)) (f : Statement Int) : Statement Int :=
  { f with labels := some labels }

/-- A report with other labels on its source. -/
def Diagnostic.withLabels (labels : List (Label Int)) : Report Int → Report Int
  | .alone facts => .alone (facts.withLabels labels)
  | .group facts related => .group (facts.withLabels labels) related

theorem Entry.shown?_withLabels (depth : Nat) (facts : Statement Int) (source : Source)
    (labels : List (Label Int)) :
    (Entry.told depth (facts.withLabels labels) (some source)).shown? =
      if labels.isEmpty then none else some (source, labels) :=
  rfl

/-- The labels of a report are those of the first entry of its outline. -/
theorem Report.exists_outline_withLabels (limit : Nat) (report : Report Int) :
    ∃ rest, ∀ labels, outline limit (report.withLabels labels) =
      .told 0 (report.facts.withLabels labels) report.facts.source :: rest := by
  have own (source : Option Source) : (source <|> none) = source := by cases source <;> rfl
  cases report with
  | alone facts =>
    refine ⟨[], fun labels => ?_⟩
    rw [Diagnostic.withLabels, outline, outlineFrom, Facts.withLabels, own]
    rfl
  | group facts related =>
    refine ⟨if related.isEmpty then []
      else if limit ≤ 0 then [.omitted 0 related.length]
      else outlineAll limit 1 facts.source related, fun labels => ?_⟩
    rw [Diagnostic.withLabels, outline, outlineFrom, Facts.withLabels, own]
    rfl

section

variable {settings : Settings} {source : Source} {labels others : List (Label Int)}
  (empty_eq : others.isEmpty = labels.isEmpty)
  (told_eq : Narration.lines settings.manner source others =
    Narration.lines settings.manner source labels)

include empty_eq told_eq

/-- What is told of a diagnostic depends on its labels by what is told of their windows. -/
theorem Narrated.entry_withLabels (depth : Nat) (facts : Statement Int) :
    entry settings (.told depth (facts.withLabels others) (some source)) =
      entry settings (.told depth (facts.withLabels labels) (some source)) := by
  have snippet_eq : snippet settings (.told depth (facts.withLabels others) (some source)) =
      snippet settings (.told depth (facts.withLabels labels) (some source)) := by
    rw [snippet, snippet, Entry.shown?_withLabels, Entry.shown?_withLabels, empty_eq]
    by_cases empty : labels.isEmpty = true
    · rw [if_pos empty, if_pos empty]
    · rw [if_neg empty, if_neg empty]
      exact told_eq
  rw [entry, snippet_eq]
  rfl

theorem Handler.text_withLabels {report : Report Int}
    (sourced : report.facts.source = some source) :
    (narrated settings).text (report.withLabels others) =
      (narrated settings).text (report.withLabels labels) := by
  obtain ⟨rest, outline_eq⟩ := Report.exists_outline_withLabels settings.depthLimit report
  simp only [text, lines, Narrated.lines, outline_eq, List.mapM_cons, sourced,
    Narrated.entry_withLabels empty_eq told_eq]

end

namespace Snippet

/-- Labels in another order have the same windows: each has its span, its contents and the place
that heads it, with its labels perhaps in another order, and the same labels fail.  If moreover no
two labels are on one span once points at the end of the source are moved back, the text that is
drawn or narrated is the same. -/
theorem order_changes_nothing (source : Source) {labels others : List (Label Int)}
    (valid : ∀ l ∈ labels, l.span.Valid) (perm : others.Perm labels) :
    (∀ before after : Nat, ∃ m m',
      Merge.ofLabels source.bytes labels before after = .ok m ∧
      Merge.ofLabels source.bytes others before after = .ok m' ∧
      List.Forall₂ Window.Reordered m.windows m'.windows ∧ m'.failures.Perm m.failures) ∧
    (((labels.map (Window.settle source.bytes)).map Label.span).Nodup →
      (∀ manner : Manner, ∃ drawn told,
        rows manner source labels = .ok drawn ∧ rows manner source others = .ok drawn ∧
        Narration.lines manner source labels = .ok told ∧
        Narration.lines manner source others = .ok told) ∧
      ∀ (settings : Settings) (report : Report Int), report.facts.source = some source →
        (Handler.narrated settings).text (report.withLabels others) =
          (Handler.narrated settings).text (report.withLabels labels)) := by
  refine ⟨Merge.exists_reordered valid perm source.bytes, fun distinct => ?_⟩
  have sort_eq := Label.sort_eq_of_perm (perm.map (Window.settle source.bytes)) distinct
  have gathered_eq (manner : Manner) :
      Window.ofSource source others manner.before manner.after =
        Window.ofSource source labels manner.before manner.after := by
    rw [Window.ofSource, Window.ofSource, Merge.ofLabels, Merge.ofLabels, sort_eq]
  have told_eq (manner : Manner) :
      Narration.lines manner source others = Narration.lines manner source labels := by
    rw [Narration.lines, Narration.lines, gathered_eq]
  refine ⟨fun manner => ?_, fun settings report sourced => ?_⟩
  · obtain ⟨m, gathered, gathers⟩ := Merge.exists_gathers (Window.settled_valid valid)
      source.bytes manner.before manner.after
    obtain ⟨frames, framed, -, -⟩ := Frame.exists_frames gathers.madeOfLabels
    have gathered : Window.ofSource source labels manner.before manner.after = .ok m := gathered
    have gathered' := (gathered_eq manner).trans gathered
    exact ⟨_, _, rows_of_frames gathered framed, rows_of_frames gathered' framed,
      Narration.lines_of_frames gathered framed, Narration.lines_of_frames gathered' framed⟩
  · exact Handler.text_withLabels perm.isEmpty_eq (told_eq settings.manner) sourced

/-- Labels on the same line, one of them primary, and a point at the end of the source, turned
about. -/
theorem order_changes_nothing_turned :
    (∀ l ∈ [(⟨⟨0, 1⟩, none, none⟩ : Label Int), ⟨⟨0, 2⟩, none, some true⟩, ⟨⟨4, 0⟩, none, none⟩],
        l.span.Valid) ∧
      [(⟨⟨4, 0⟩, none, none⟩ : Label Int), ⟨⟨0, 2⟩, none, some true⟩, ⟨⟨0, 1⟩, none, none⟩].Perm
        [⟨⟨0, 1⟩, none, none⟩, ⟨⟨0, 2⟩, none, some true⟩, ⟨⟨4, 0⟩, none, none⟩] ∧
      (([(⟨⟨0, 1⟩, none, none⟩ : Label Int), ⟨⟨0, 2⟩, none, some true⟩, ⟨⟨4, 0⟩, none, none⟩].map
        (Window.settle (Source.ofText "a\nb\n").bytes)).map Label.span).Nodup ∧
      ∃ drawn,
        rows ⟨1, 1, 4, .unicode, .plain⟩ (.ofText "a\nb\n")
          [(⟨⟨0, 1⟩, none, none⟩ : Label Int), ⟨⟨0, 2⟩, none, some true⟩, ⟨⟨4, 0⟩, none, none⟩] =
          .ok drawn ∧
        rows ⟨1, 1, 4, .unicode, .plain⟩ (.ofText "a\nb\n")
          [(⟨⟨4, 0⟩, none, none⟩ : Label Int), ⟨⟨0, 2⟩, none, some true⟩, ⟨⟨0, 1⟩, none, none⟩] =
          .ok drawn := by
  have distinct : (([(⟨⟨0, 1⟩, none, none⟩ : Label Int), ⟨⟨0, 2⟩, none, some true⟩,
      ⟨⟨4, 0⟩, none, none⟩].map (Window.settle (Source.ofText "a\nb\n").bytes)).map
      Label.span).Nodup := by decide
  refine ⟨by decide, by decide, distinct, ?_⟩
  obtain ⟨drawn, -, drawn_eq, turned_eq, -⟩ := ((@order_changes_nothing (.ofText "a\nb\n")
    [⟨⟨0, 1⟩, none, none⟩, ⟨⟨0, 2⟩, none, some true⟩, ⟨⟨4, 0⟩, none, none⟩]
    [⟨⟨4, 0⟩, none, none⟩, ⟨⟨0, 2⟩, none, some true⟩, ⟨⟨0, 1⟩, none, none⟩]
    (by decide) (by decide)).2 distinct).1 ⟨1, 1, 4, .unicode, .plain⟩
  exact ⟨drawn, drawn_eq, turned_eq⟩

end Snippet

end Marginalia
