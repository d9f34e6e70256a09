import Marginalia.Proofs.Text.Composition
import Marginalia.Proofs.Text.Renditions
import Marginalia.Text.Wrap

/-!
# Printable text

Columns are counted in two ways, by characters and by clusters.  A printable character of ASCII is
a cluster of its own and takes one column either way, so the width of a text of such characters is
their number, and a text is as wide as its parts together.
-/

namespace Marginalia.Text

/-- Whether a character is one of ASCII that can be printed; the space is. -/
def IsPrintable (c : Char) : Prop := 0x20 ≤ c.toNat ∧ c.toNat ≤ 0x7E

instance (c : Char) : Decidable (IsPrintable c) := inferInstanceAs (Decidable (_ ∧ _))

/-- Whether all characters of a text are printable. -/
def Printable (cs : List Char) : Prop := ∀ c ∈ cs, IsPrintable c

instance (cs : List Char) : Decidable (Printable cs) :=
  List.decidableBAll IsPrintable cs

namespace IsPrintable

variable {c : Char}

/-- There are few enough printable characters to look at each. -/
theorem of_each {P : Char → Prop} (each : ∀ n : Fin 95, P (Char.ofNat (0x20 + n)))
    (printable : IsPrintable c) : P c := by
  obtain ⟨from_space, to_tilde⟩ := printable
  have code := each ⟨c.toNat - 0x20, by omega⟩
  rwa [Nat.add_sub_of_le from_space, Char.ofNat_toNat] at code

theorem clusterRole_eq (printable : IsPrintable c) : clusterRole c = .other :=
  of_each (P := (clusterRole · = .other)) (by decide +kernel) printable

theorem clusterWidth_eq (printable : IsPrintable c) : clusterWidth [c] = 1 :=
  of_each (P := fun c => clusterWidth [c] = 1) (by decide +kernel) printable

theorem widthOf_eq (printable : IsPrintable c) : widthOf c = 1 :=
  of_each (P := (widthOf · = 1)) (by decide +kernel) printable

/-- The only printable blank is the space. -/
theorem isBlank_eq (printable : IsPrintable c) : isBlank c = decide (c = ' ') :=
  of_each (P := fun c => isBlank c = decide (c = ' ')) (by decide +kernel) printable

theorem beginsEscape_eq (printable : IsPrintable c) : beginsEscape c = false :=
  of_each (P := (beginsEscape · = false)) (by decide +kernel) printable

theorem ne_of_not {d : Char} (printable : IsPrintable c) (other : ¬ IsPrintable d) : c ≠ d :=
  fun eq => other (eq ▸ printable)

end IsPrintable

namespace Printable

variable {c : Char} {cs ds : List Char}

theorem nil : Printable [] := List.forall_mem_nil _

theorem cons_iff : Printable (c :: cs) ↔ IsPrintable c ∧ Printable cs := List.forall_mem_cons

theorem append_iff : Printable (cs ++ ds) ↔ Printable cs ∧ Printable ds := List.forall_mem_append

theorem subset (printable : Printable cs) (within : ds ⊆ cs) : Printable ds := fun c member =>
  printable c (within member)

theorem quiet (printable : Printable cs) : Quiet cs := fun c member =>
  (printable c member).beginsEscape_eq

theorem not_mem (printable : Printable cs) (other : ¬ IsPrintable c) : c ∉ cs := fun member =>
  other (printable c member)

end Printable

/-! ## Columns by clusters -/

theorem anyEscape_of_not_beginsEscape {c : Char} (plain : beginsEscape c = false)
    (rest : List Char) : anyEscape (c :: rest) = none := by
  simp only [beginsEscape, Bool.or_eq_false_iff, decide_eq_false_iff_not] at plain
  obtain ⟨not_esc, not_introducer⟩ := plain
  unfold anyEscape
  split
  · rename_i eq
    exact absurd (List.cons.inj eq).1 not_esc
  · rename_i eq
    exact absurd (List.cons.inj eq).1 not_esc
  · rename_i eq
    rw [← (List.cons.inj eq).1, if_neg not_introducer]
  · rename_i eq
    cases eq

theorem remove_anyEscape_of_quiet {cs : List Char} (quiet : Quiet cs) :
    remove anyEscape cs = cs := by
  induction cs with
  | nil => rfl
  | cons c rest ih =>
    rw [Quiet.cons_iff] at quiet
    rw [remove_cons_of_none (anyEscape_of_not_beginsEscape quiet.1 rest), ih quiet.2]

/-- Nothing but what belongs to the character behind it takes in a printable character. -/
theorem ClusterState.continues_other {s : ClusterState} (ends : s.last ≠ .preceding) :
    s.continues .other = false := by
  unfold continues
  cases last : s.last with
  | preceding => exact absurd last ends
  | _ => rfl

theorem clustersFrom_of_printable {cs : List Char} (printable : Printable cs) {s : ClusterState}
    (ends : s.last ≠ .preceding) : clustersFrom s cs = ([], cs.map ([·])) := by
  induction cs generalizing s with
  | nil => rfl
  | cons c rest ih =>
    rw [Printable.cons_iff] at printable
    have pushed : (s.push .other).last ≠ .preceding := by
      show ClusterRole.other ≠ .preceding
      decide
    rw [clustersFrom, printable.1.clusterRole_eq, ih printable.2 pushed]
    simp only [ClusterState.continues_other ends, Bool.false_eq_true, if_false, List.map_cons]

theorem clustersWidth_map {cs : List Char} (printable : Printable cs) :
    clustersWidth (cs.map ([·])) = cs.length := by
  induction cs with
  | nil => rfl
  | cons c rest ih =>
    rw [Printable.cons_iff] at printable
    rw [List.map_cons, clustersWidth, printable.1.clusterWidth_eq, ih printable.2, List.length_cons,
      Nat.add_comm]

/-- By clusters a printable text takes one column for each character. -/
theorem Printable.clusteredWidth_eq {cs : List Char} (printable : Printable cs) :
    clusteredWidth cs = cs.length := by
  have start : ClusterState.start.last ≠ .preceding := by decide
  rw [clusteredWidth, remove_anyEscape_of_quiet printable.quiet, clusters,
    clustersFrom_of_printable printable start, clustersWidth_map printable]

/-! ## Columns by characters -/

/-- And by characters too, wherever it stands. -/
theorem Printable.columnAfter_eq {cs : List Char} (printable : Printable cs) (tab column : Nat) :
    columnAfter tab column cs = column + cs.length := by
  induction cs generalizing column with
  | nil => rfl
  | cons c rest ih =>
    rw [Printable.cons_iff] at printable
    have not_tab : c ≠ '\t' := printable.1.ne_of_not (by decide)
    rw [columnAfter, List.foldl_cons, advance, if_neg not_tab, printable.1.widthOf_eq]
    exact (ih printable.2 (column + 1)).trans (by rw [List.length_cons]; omega)

/-- A printable text behind one with renditions adds its own columns. -/
theorem visibleWidth_append {u p cs : List Char} (adorned : Adorned u p) (unescaped : esc ∉ p)
    (printable : Printable cs) : visibleWidth (u ++ cs) = visibleWidth u + cs.length := by
  have behind : Adorned (u ++ cs) (p ++ cs) :=
    adorned.append (.of_unescaped printable.quiet.esc_not_mem)
  have behind_unescaped : esc ∉ p ++ cs := by
    rw [List.mem_append, not_or]
    exact ⟨unescaped, printable.quiet.esc_not_mem⟩
  rw [visibleWidth, visibleWidth, behind.remove_reportEscape_eq behind_unescaped,
    adorned.remove_reportEscape_eq unescaped, width, width, columnAfter, List.foldl_append]
  exact printable.columnAfter_eq defaultTab _

end Marginalia.Text
