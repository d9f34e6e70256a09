import Marginalia.Proofs.Text.Decoding
import Marginalia.Text.Fill

/-!
# Composed text begins no escape

A text is quiet if none of its characters begins an escape.  No character that is taken apart or
composed gives one that does, so a quiet text is quiet in its composed form.
-/

namespace Marginalia.Text

/-- Whether a text has no character that begins an escape. -/
def Quiet (cs : List Char) : Prop := ∀ c ∈ cs, beginsEscape c = false

namespace Quiet

variable {c : Char} {cs ds : List Char}

@[simp] theorem nil : Quiet [] := by simp [Quiet]

@[simp] theorem cons_iff : Quiet (c :: cs) ↔ beginsEscape c = false ∧ Quiet cs :=
  List.forall_mem_cons

@[simp] theorem append_iff : Quiet (cs ++ ds) ↔ Quiet cs ∧ Quiet ds := List.forall_mem_append

theorem subset (quiet : Quiet cs) (within : ds ⊆ cs) : Quiet ds := fun c member =>
  quiet c (within member)

theorem reverse (quiet : Quiet cs) : Quiet cs.reverse := quiet.subset (by simp)

theorem esc_not_mem (quiet : Quiet cs) : esc ∉ cs := fun member =>
  absurd (quiet esc member) (by decide)

end Quiet

theorem quiet_of_all {cs : List Char} (all : cs.all (!beginsEscape ·) = true) : Quiet cs := by
  intro c member
  simpa using List.all_eq_true.mp all c member

/-! ## Code points -/

theorem beginsEscape_ofNat {n : Nat} (escape : n ≠ 0x1B) (introduces : n ≠ 0x9B) :
    beginsEscape (Char.ofNat n) = false := by
  have esc_ne : Char.ofNat n ≠ esc := fun same =>
    (Utf8.eq_toNat_of_ofNat_eq same).elim escape (by decide)
  have introducer_ne : Char.ofNat n ≠ introducer := fun same =>
    (Utf8.eq_toNat_of_ofNat_eq same).elim introduces (by decide)
  simp [beginsEscape, esc_ne, introducer_ne]

/-! ## Tables

The letters of a table are looked at one string at a time, since a long string is slow to take
apart. -/

section

variable {ok : Char → Bool}

theorem all_toList {cs : List Char} (all : cs.all ok = true) :
    (String.ofList cs).toList.all ok = true := by
  rwa [String.toList_ofList]

theorem all_append {s t : String} (front : s.toList.all ok = true)
    (back : t.toList.all ok = true) : (s ++ t).toList.all ok = true := by
  rw [String.toList_append, List.all_append, front, back]
  rfl

end

set_option maxRecDepth 2000 in
theorem composedLetters_quiet :
    (composedLetters.all fun entry => entry.2.toList.all (!beginsEscape ·)) = true := by
  simp only [composedLetters, List.all_cons, List.all_nil, Bool.and_true, Bool.and_eq_true]
  and_intros
  all_goals repeat' with_reducible apply all_append
  all_goals exact all_toList (by decide +kernel)

theorem composedLetters_marks_quiet :
    (composedLetters.all fun entry => !beginsEscape (Char.ofNat entry.1)) = true := by
  decide +kernel

theorem composedTriples_quiet :
    (composedTriples.all fun (base, mark, composed) =>
      [base, mark, composed].all fun n => !beginsEscape (Char.ofNat n)) = true := by
  decide +kernel

theorem writtenApart_quiet :
    (writtenApart.all fun entry => entry.2.all fun n => !beginsEscape (Char.ofNat n)) = true := by
  decide +kernel

set_option maxRecDepth 2000 in
theorem firstIdeographs_quiet : firstIdeographs.toList.all (!beginsEscape ·) = true := by
  unfold firstIdeographs
  repeat' with_reducible apply all_append
  all_goals exact all_toList (by decide +kernel)

set_option maxRecDepth 2000 in
theorem secondIdeographs_quiet : secondIdeographs.toList.all (!beginsEscape ·) = true := by
  unfold secondIdeographs
  repeat' with_reducible apply all_append
  all_goals exact all_toList (by decide +kernel)

/-- A base, a mark and what they compose to. -/
def QuietTriple (triple : Char × Char × Char) : Prop :=
  Quiet [triple.1, triple.2.1, triple.2.2]

theorem withMark_quiet {mark : Char} (quiet_mark : beginsEscape mark = false) {letters : List Char}
    (quiet : Quiet letters) : ∀ triple ∈ withMark mark letters, QuietTriple triple := by
  fun_induction withMark mark letters with
  | case1 base composed rest ih =>
    simp only [Quiet.cons_iff] at quiet
    refine List.forall_mem_cons.mpr ⟨?_, ih quiet.2.2⟩
    simp [QuietTriple, quiet, quiet_mark]
  | case2 => simp

theorem compositions_quiet : ∀ triple ∈ compositions, QuietTriple triple := by
  intro triple member
  rcases List.mem_append.mp member with member | member
  · obtain ⟨entry, entry_member, member⟩ := List.mem_flatMap.mp member
    have quiet_mark := List.all_eq_true.mp composedLetters_marks_quiet entry entry_member
    have letters := quiet_of_all (List.all_eq_true.mp composedLetters_quiet entry entry_member)
    exact withMark_quiet (by simpa using quiet_mark) letters triple member
  · obtain ⟨entry, entry_member, rfl⟩ := List.mem_map.mp member
    have quiet := List.all_eq_true.mp composedTriples_quiet entry entry_member
    simpa [QuietTriple] using quiet

theorem ideograph_quiet {n : Nat} {c : Char} (found : ideograph? n = some c) :
    beginsEscape c = false := by
  unfold ideograph? at found
  split at found
  · cases found
  · split at found
    · exact quiet_of_all firstIdeographs_quiet c (List.mem_of_getElem? found)
    · exact quiet_of_all secondIdeographs_quiet c (List.mem_of_getElem? found)

/-! ## Taking apart -/

theorem takeApartHangul_quiet (c : Char) : Quiet (takeApartHangul c) := by
  have quiet (first more : Nat) (large : 0x1100 ≤ first) :
      beginsEscape (Char.ofNat (first + more)) = false :=
    beginsEscape_ofNat (by omega) (by omega)
  unfold takeApartHangul
  dsimp only
  split <;> simp [quiet 0x1100, quiet 0x1161, quiet 0x11A7]

theorem takeApartIn_quiet {table : List (Char × Char × Char)}
    (triples : ∀ triple ∈ table, QuietTriple triple) (steps : Nat) {c : Char}
    (quiet : beginsEscape c = false) : Quiet (takeApartIn table steps c) := by
  induction steps generalizing c with
  | zero => exact Quiet.cons_iff.mpr ⟨quiet, Quiet.nil⟩
  | succ steps ih =>
    rw [takeApartIn]
    split
    · rename_i base mark composed found
      have triple := triples _ (List.mem_of_find?_eq_some found)
      simp only [QuietTriple, Quiet.cons_iff] at triple
      simp [ih triple.1, triple.2.1]
    · exact Quiet.cons_iff.mpr ⟨quiet, Quiet.nil⟩

theorem takeApart_quiet {c : Char} (quiet : beginsEscape c = false) : Quiet (takeApart c) := by
  unfold takeApart
  split
  · exact takeApartHangul_quiet c
  · split
    · rename_i parts found
      obtain ⟨front, back, table, -⟩ := List.lookup_eq_some_iff.mp found
      have entry := List.all_eq_true.mp writtenApart_quiet (c.toNat, parts) (by simp [table])
      intro d member
      obtain ⟨n, n_member, rfl⟩ := List.mem_map.mp member
      simpa using List.all_eq_true.mp entry n n_member
    · split
      · rename_i found
        simp [ideograph_quiet found]
      · exact takeApartIn_quiet compositions_quiet _ quiet

/-! ## Composing -/

theorem insertMark_perm (mark : Char) (cs : List Char) :
    (insertMark mark cs).Perm (mark :: cs) := by
  induction cs with
  | nil => exact .refl _
  | cons c rest ih =>
    rw [insertMark]
    split
    · exact (ih.cons c).trans (.swap mark c rest)
    · exact .refl _

/-- Marks are put in order, and nothing else happens to a text. -/
theorem orderMarks_perm (cs : List Char) : (orderMarks cs).Perm cs := by
  induction cs with
  | nil => exact .refl _
  | cons c rest ih =>
    rw [orderMarks]
    split
    · exact ih.cons c
    · exact (insertMark_perm c _).trans (ih.cons c)

theorem composeHangul_quiet {first second c : Char} (composed : composeHangul first second = some c) :
    beginsEscape c = false := by
  unfold composeHangul at composed
  dsimp only at composed
  split at composed
  · obtain rfl := Option.some.inj composed
    exact beginsEscape_ofNat (by omega) (by omega)
  · split at composed
    · obtain rfl := Option.some.inj composed
      exact beginsEscape_ofNat (by omega) (by omega)
    · cases composed

theorem composePair_quiet {first second c : Char} (composed : composePair first second = some c) :
    beginsEscape c = false := by
  unfold composePair at composed
  generalize searched : compositions.find? _ = found at composed
  cases found with
  | none => exact composeHangul_quiet composed
  | some triple =>
    obtain rfl := Option.some.inj composed
    have quiet := compositions_quiet triple (List.mem_of_find?_eq_some searched)
    simp only [QuietTriple, Quiet.cons_iff] at quiet
    exact quiet.2.2.1

theorem composeFrom_cons (base : Char) (marks : List Char) (c : Char) (rest : List Char) :
    composeFrom base marks (c :: rest) =
      let isFree :=
        match marks with
        | [] => true
        | last :: _ => markClass last < markClass c
      match (if isFree then composePair base c else none) with
      | some composed => composeFrom composed marks rest
      | none =>
        if markClass c = 0 then base :: (marks.reverse ++ composeFrom c [] rest)
        else composeFrom base (c :: marks) rest := rfl

theorem composeFrom_quiet {base : Char} {marks cs : List Char} (quiet_base : beginsEscape base = false)
    (quiet_marks : Quiet marks) (quiet : Quiet cs) : Quiet (composeFrom base marks cs) := by
  induction cs generalizing base marks with
  | nil => exact Quiet.cons_iff.mpr ⟨quiet_base, quiet_marks.reverse⟩
  | cons c rest ih =>
    rw [Quiet.cons_iff] at quiet
    rw [composeFrom_cons]
    dsimp only
    generalize (match marks with | [] => true | last :: _ => decide (markClass last < markClass c)) = free
    split
    · rename_i composed joined
      have quiet_composed : beginsEscape composed = false := by
        cases free with
        | false => cases joined
        | true => exact composePair_quiet joined
      exact ih quiet_composed quiet_marks quiet.2
    · split
      · simp [quiet_base, quiet_marks.reverse, ih quiet.1 Quiet.nil quiet.2]
      · exact ih quiet_base (Quiet.cons_iff.mpr ⟨quiet.1, quiet_marks⟩) quiet.2

theorem composeMarks_quiet {cs : List Char} (quiet : Quiet cs) : Quiet (composeMarks cs) := by
  induction cs with
  | nil => exact quiet
  | cons c rest ih =>
    rw [Quiet.cons_iff] at quiet
    rw [composeMarks]
    split
    · exact composeFrom_quiet quiet.1 Quiet.nil quiet.2
    · exact Quiet.cons_iff.mpr ⟨quiet.1, ih quiet.2⟩

theorem compose_quiet {cs : List Char} (quiet : Quiet cs) : Quiet (compose cs) := by
  unfold compose
  split
  · exact quiet
  · refine composeMarks_quiet (Quiet.subset ?_ (orderMarks_perm _).subset)
    intro d member
    obtain ⟨c, c_member, member⟩ := List.mem_flatMap.mp member
    exact takeApart_quiet (quiet c c_member) d member

end Marginalia.Text
