import Mathlib.Data.List.DropRight
import Marginalia.Proofs.Text.Filling
import Marginalia.Proofs.Text.Printable

/-!
# Rows of printable text

What is filled with printable text may have too many spaces at the end of a row while it is in hand,
and is trimmed in the end.  So the invariant of filling is that a row fits without the spaces at its
end.  Nothing but spaces is put in or taken away.
-/

namespace Marginalia.Text

/-! ## Ink -/

/-- The characters of a text that leave ink on a page: all but the spaces. -/
def ink (cs : List Char) : List Char := cs.filter (· ≠ ' ')

theorem ink_append (cs ds : List Char) : ink (cs ++ ds) = ink cs ++ ink ds := List.filter_append ..

theorem ink_of_spaces {cs : List Char} (spaces : ∀ c ∈ cs, c = ' ') : ink cs = [] := by
  refine List.filter_eq_nil_iff.mpr fun c member => ?_
  simp [spaces c member]

theorem ink_rdropWhile (cs : List Char) : ink (cs.rdropWhile (· = ' ')) = ink cs := by
  have taken : ink (cs.rtakeWhile (· = ' ')) = [] := by
    refine ink_of_spaces fun c member => ?_
    have space := List.mem_rtakeWhile_imp member
    exact of_decide_eq_true space
  have parts := congrArg ink (List.rdropWhile_append_rtakeWhile (p := (· = ' ')) (l := cs))
  rw [ink_append, taken, List.append_nil] at parts
  exact parts

theorem ink_trimStart {cs : List Char} (printable : Printable cs) : ink (trimStart cs) = ink cs := by
  have taken : ink (cs.takeWhile isBlank) = [] := by
    refine ink_of_spaces fun c member => ?_
    have blank := List.mem_takeWhile_imp member
    rw [(printable c ((List.takeWhile_sublist _).subset member)).isBlank_eq] at blank
    exact of_decide_eq_true blank
  have parts := congrArg ink (List.takeWhile_append_dropWhile (p := isBlank) (l := cs))
  rw [ink_append, taken, List.nil_append] at parts
  exact parts

theorem ink_join (words : List (List Char)) : ink (join ' ' words) = ink words.flatten := by
  induction words with
  | nil => rfl
  | cons word rest ih =>
    by_cases more : rest = []
    · rw [more, List.flatten_singleton]
      rfl
    · rw [join_cons_of_ne_nil word more, List.flatten_cons, ink_append, ink_append, ← ih]
      rfl

theorem ink_trim {cs : List Char} (printable : Printable cs) : ink (trim cs) = ink cs := by
  have reversed (ds : List Char) : ink ds.reverse = (ink ds).reverse := List.filter_reverse
  have started : Printable (trimStart cs).reverse :=
    printable.subset fun _ member => (List.dropWhile_sublist _).subset (List.mem_reverse.mp member)
  rw [trim, trimEnd, reversed, ink_trimStart started, reversed, List.reverse_reverse,
    ink_trimStart printable]

/-! ## Rows without the spaces at their end -/

/-- Whether a row has no more than so many columns without the spaces at its end. -/
def Fits (columns : Nat) (row : List Char) : Prop := (row.rdropWhile (· = ' ')).length ≤ columns

namespace Fits

variable {columns : Nat} {row : List Char}

theorem of_length_le (short : row.length ≤ columns) : Fits columns row :=
  Nat.le_trans (List.rdropWhile_prefix _ _).length_le short

theorem append_space (fits : Fits columns row) : Fits columns (row ++ [' ']) := by
  rw [Fits, List.rdropWhile_concat_pos _ _ _ (by simp)]
  exact fits

theorem trimStart (fits : Fits columns row) : Fits columns (trimStart row) := by
  obtain ⟨front, row_eq⟩ := List.dropWhile_suffix (l := row) isBlank
  change front ++ Text.trimStart row = row at row_eq
  rw [Fits, ← row_eq, List.rdropWhile, List.reverse_append, List.dropWhile_append] at fits
  rw [Fits, List.rdropWhile]
  split at fits
  · rename_i nothing
    rw [List.isEmpty_iff.mp nothing]
    exact Nat.zero_le _
  · simp only [List.reverse_append, List.reverse_reverse, List.length_append] at fits
    omega

end Fits

theorem join_concat {words : List (List Char)} (nonempty : words ≠ []) (word : List Char) :
    join ' ' (words ++ [word]) = join ' ' words ++ ' ' :: word := by
  induction words with
  | nil => exact absurd rfl nonempty
  | cons first rest ih =>
    by_cases more : rest = []
    · rw [more]
      rfl
    · rw [List.cons_append, join_cons_of_ne_nil first (by simp), ih more,
        join_cons_of_ne_nil first more, List.append_assoc, List.cons_append]

/-- The spaces at the end of words that are joined are those between empty words. -/
theorem join_rdropWhile {words : List (List Char)} {p : List Char → Bool}
    (free : ∀ word ∈ words, ' ' ∉ word) (empty : ∀ word ∈ words, p word = word.isEmpty) :
    join ' ' (words.rdropWhile p) = (join ' ' words).rdropWhile (· = ' ') := by
  induction words using List.reverseRecOn with
  | nil => rfl
  | append_singleton words word ih =>
    rw [List.forall_mem_append, List.forall_mem_singleton] at free empty
    rcases List.eq_nil_or_concat' word with rfl | ⟨front, last, rfl⟩
    · rw [List.rdropWhile_concat_pos _ _ _ empty.2, ih free.1 empty.1]
      by_cases nonempty : words = []
      · rw [nonempty]
        rfl
      · rw [join_concat nonempty, List.rdropWhile_concat_pos _ _ _ (by simp)]
    · have not_space : ¬ decide (last = ' ') = true := by
        intro space
        exact free.2 (by simp [of_decide_eq_true space])
      have not_empty : ¬ p (front ++ [last]) = true := by simp [empty.2]
      rw [List.rdropWhile_concat_neg _ _ _ not_empty]
      by_cases nonempty : words = []
      · rw [nonempty]
        exact (List.rdropWhile_concat_neg (· = ' ') _ last not_space).symm
      · rw [join_concat nonempty, ← List.cons_append, ← List.append_assoc,
          List.rdropWhile_concat_neg (· = ' ') _ last not_space]

/-- What is taken up to the words at the end is what is left when they are dropped. -/
theorem take_length_sub_rtakeWhile {α : Type} (p : α → Bool) (l : List α) :
    l.take (l.length - (l.rtakeWhile p).length) = l.rdropWhile p := by
  have lengths := congrArg List.length (List.rdropWhile_append_rtakeWhile (p := p) (l := l))
  rw [List.length_append] at lengths
  have length_eq : l.length - (l.rtakeWhile p).length = (l.rdropWhile p).length := by omega
  rw [length_eq]
  exact (List.prefix_iff_eq_take.mp (List.rdropWhile_prefix _ _)).symm

/-- Printable words without columns are empty, so that only spaces go from the end of a row. -/
theorem trimRow_eq {row : List Char} (printable : Printable row) :
    trimRow row = row.rdropWhile (· = ' ') := by
  let hides (word : List Char) : Bool := decide (clusteredWidth word = 0)
  let words := split ' ' row
  have empty (word : List Char) (member : word ∈ words) : hides word = word.isEmpty := by
    have word_printable : Printable word :=
      printable.subset fun _ inside => mem_of_mem_split member inside
    simp only [hides, word_printable.clusteredWidth_eq]
    cases word <;> rfl
  have hidden_flatten : (words.rtakeWhile hides).flatten = [] := by
    refine List.flatten_eq_nil_iff.mpr fun word member => ?_
    have hidden := List.mem_rtakeWhile_imp member
    rw [empty word ((List.rtakeWhile_suffix _ _).subset member)] at hidden
    exact List.isEmpty_iff.mp hidden
  calc trimRow row
    _ = if (words.rtakeWhile hides).isEmpty then row
        else join ' ' (words.take (words.length - (words.rtakeWhile hides).length)) ++
          (words.rtakeWhile hides).flatten := rfl
    _ = join ' ' (words.rdropWhile hides) := by
      rw [take_length_sub_rtakeWhile, hidden_flatten, List.append_nil]
      split
      · rename_i nothing
        have all := List.rdropWhile_append_rtakeWhile (p := hides) (l := words)
        rw [List.isEmpty_iff.mp nothing, List.append_nil] at all
        rw [all, join_split]
      · rfl
    _ = row.rdropWhile (· = ' ') := by
      rw [join_rdropWhile (fun _ => separator_not_mem_split) empty, join_split]

/-! ## Rows in hand -/

namespace Filling

theorem flatten_push (f : Filling) (row : List Char) :
    (f.push row).rows.flatten = f.rows.flatten ++ row := by
  simp [push, rows]

theorem flatten_append (f : Filling) (text : List Char) :
    (f.append text).rows.flatten = f.rows.flatten ++ text := by
  simp [append, rows]

/-- Rows that are being filled with printable text, and the ink in them so far. -/
structure Holds (columns : Nat) (marks : List Char) (f : Filling) : Prop where
  done : ∀ row ∈ f.done, Printable row ∧ Fits columns row
  printable : Printable f.last
  fits : Fits columns f.last
  ink : ink f.rows.flatten = marks

/-- A row without the blanks at its start, and with a space for a word that is not the first. -/
def spaced (isFirst : Bool) (row : List Char) : List Char :=
  if !isFirst && decide (0 < (trimStart row).length) then trimStart row ++ [' ']
  else trimStart row

theorem length_spaced (isFirst : Bool) (row : List Char) :
    (spaced isFirst row).length =
      if !isFirst && decide (0 < (trimStart row).length) then (trimStart row).length + 1
      else (trimStart row).length := by
  unfold spaced
  split
  · exact List.length_append
  · rfl

namespace Holds

variable {columns : Nat} {marks row text word : List Char} {f : Filling}

theorem empty : Holds columns [] .empty where
  done := List.forall_mem_nil _
  printable := .nil
  fits := Nat.zero_le _
  ink := rfl

theorem push (holds : f.Holds columns marks) (row_printable : Printable row)
    (row_fits : Fits columns row) : (f.push row).Holds columns (marks ++ Text.ink row) where
  done := List.forall_mem_cons.mpr ⟨⟨holds.printable, holds.fits⟩, holds.done⟩
  printable := row_printable
  fits := row_fits
  ink := by rw [flatten_push, ink_append, holds.ink]

theorem push_nil (holds : f.Holds columns marks) : (f.push []).Holds columns marks := by
  have pushed := holds.push .nil (.of_length_le (Nat.zero_le _))
  rwa [Text.ink, List.filter_nil, List.append_nil] at pushed

theorem append (holds : f.Holds columns marks) (text_printable : Printable text)
    (fits : Fits columns (f.last ++ text)) :
    (f.append text).Holds columns (marks ++ Text.ink text) where
  done := holds.done
  printable := Printable.append_iff.mpr ⟨holds.printable, text_printable⟩
  fits := fits
  ink := by rw [flatten_append, ink_append, holds.ink]

/-- A word that is broken goes on where the row in hand has room, and no row gets longer than the
columns that there are. -/
theorem breakWord (positive : 0 < columns) (holds : f.Holds columns marks)
    (short : f.last.length ≤ columns) (word_printable : Printable word) :
    let broken := breakWord columns f f.last.length .text word
    broken.1.Holds columns (marks ++ Text.ink word) ∧ broken.2 = broken.1.last.length := by
  induction word generalizing f marks with
  | nil =>
    rw [Text.breakWord, Text.ink, List.filter_nil, List.append_nil]
    exact ⟨holds, rfl⟩
  | cons c rest ih =>
    rw [Printable.cons_iff] at word_printable
    have char_printable : Printable [c] := Printable.cons_iff.mpr ⟨word_printable.1, .nil⟩
    have size : clusteredWidth [c] = 1 := char_printable.clusteredWidth_eq
    -- the rows with the character, and the columns in front of it on its row
    obtain ⟨g, taken, g_eq, taken_eq, grown, length_eq, short_grown⟩ : ∃ g taken,
        (if f.last.length + 1 ≤ columns then f.append [c] else f.push [c]) = g ∧
        (if f.last.length + 1 ≤ columns then f.last.length else 0) = taken ∧
        g.Holds columns (marks ++ Text.ink [c]) ∧ taken + 1 = g.last.length ∧
        g.last.length ≤ columns := by
      by_cases room : f.last.length + 1 ≤ columns
      · have length_eq : (f.append [c]).last.length = f.last.length + 1 := List.length_append
        refine ⟨f.append [c], f.last.length, if_pos room, if_pos room, ?_, length_eq.symm, ?_⟩
        · exact holds.append char_printable (.of_length_le (length_eq ▸ room))
        · rwa [length_eq]
      · refine ⟨f.push [c], 0, if_neg room, if_neg room, ?_, rfl, positive⟩
        exact holds.push char_printable (.of_length_le positive)
    have marks_eq : marks ++ Text.ink (c :: rest) = marks ++ Text.ink [c] ++ Text.ink rest := by
      rw [List.append_assoc, ← ink_append, List.singleton_append]
    rw [Text.breakWord, size, g_eq, taken_eq, word_printable.1.beginsEscape_eq, length_eq, marks_eq]
    simp only [Bool.false_eq_true, if_false]
    split
    · exact ih grown.push_nil (Nat.zero_le _) word_printable.2
    · exact ih grown short_grown word_printable.2

theorem addBroken (positive : 0 < columns) (holds : f.Holds columns marks)
    (short : f.last.length ≤ columns) (word_printable : Printable word) :
    (addBroken columns f word).Holds columns (marks ++ Text.ink word) := by
  have broken := holds.breakWord positive short word_printable
  unfold Text.addBroken
  rw [holds.printable.clusteredWidth_eq]
  dsimp only at broken ⊢
  rw [if_neg]
  · exact broken.1
  · rintro ⟨nothing, something⟩
    exact something (List.length_eq_zero_iff.mp (broken.2 ▸ nothing))

/-- The row in hand may get or lose spaces. -/
theorem replace (holds : f.Holds columns marks) (row_printable : Printable row)
    (row_fits : Fits columns row) (same : Text.ink row = Text.ink f.last) :
    (⟨f.done, row⟩ : Filling).Holds columns marks where
  done := holds.done
  printable := row_printable
  fits := row_fits
  ink := by
    have marks_eq := holds.ink
    rw [rows, List.reverse_cons, List.flatten_append, ink_append, List.flatten_singleton]
      at marks_eq ⊢
    rw [same, marks_eq]

theorem spaced (holds : f.Holds columns marks) (isFirst : Bool) :
    (⟨f.done, spaced isFirst f.last⟩ : Filling).Holds columns marks := by
  have trimmed_printable : Printable (Text.trimStart f.last) :=
    holds.printable.subset (List.dropWhile_sublist _).subset
  have trimmed_ink := ink_trimStart holds.printable
  unfold Filling.spaced
  split
  · refine holds.replace ?_ holds.fits.trimStart.append_space ?_
    · exact Printable.append_iff.mpr ⟨trimmed_printable, by decide⟩
    · rw [ink_append, trimmed_ink]
      exact List.append_nil _
  · exact holds.replace trimmed_printable holds.fits.trimStart trimmed_ink

/-- A row that does not start a new one for a long word has room for some of it. -/
theorem lt_of_rows_le {size taken : Nat}
    (stays : ¬ (size - 1) / columns < 1 + (size + taken - columns - 1) / columns) :
    taken < columns := by
  by_contra full
  have more : (size - 1) / columns ≤ (size + taken - columns - 1) / columns :=
    Nat.div_le_div_right (by omega)
  omega

/-- One more word is put behind the row in hand, on a new row, or broken. -/
theorem addWord (positive : 0 < columns) (holds : f.Holds columns marks)
    (word_printable : Printable word) (isFirst : Bool) :
    (addWord columns isFirst f word).Holds columns (marks ++ Text.ink word) := by
  have trimmed_printable : Printable (Text.trimStart f.last) :=
    holds.printable.subset (List.dropWhile_sublist _).subset
  have started := holds.spaced isFirst
  unfold Text.addWord
  dsimp only
  rw [trimmed_printable.clusteredWidth_eq, word_printable.clusteredWidth_eq, ← length_spaced,
    ← Filling.spaced]
  generalize Filling.spaced isFirst f.last = last at started
  split
  · split
    · exact started.push_nil.addBroken positive (Nat.zero_le _) word_printable
    · rename_i stays
      exact started.addBroken positive (Nat.le_of_lt (lt_of_rows_le stays)) word_printable
  · rename_i short
    have word_fits : Fits columns word := .of_length_le (by omega)
    split
    · exact started.push word_printable word_fits
    · rename_i stays
      refine started.append word_printable ?_
      by_cases empty : word = []
      · rw [empty, List.append_nil]
        exact started.fits
      · have filled := List.length_pos_iff.mpr empty
        by_cases fresh : last = []
        · rw [fresh, List.nil_append]
          exact word_fits
        · have begun := List.length_pos_iff.mpr fresh
          refine .of_length_le ?_
          show (last ++ word).length ≤ columns
          rw [List.length_append]
          omega

/-- All words are put in, one after the other. -/
theorem addWords (positive : 0 < columns) (holds : f.Holds columns marks)
    {words : List (List Char)} (words_printable : ∀ word ∈ words, Printable word)
    (isFirst : Bool) :
    (addWords columns isFirst f words).Holds columns (marks ++ Text.ink words.flatten) := by
  induction words generalizing f marks isFirst with
  | nil =>
    rw [List.flatten_nil, Text.ink, List.filter_nil, List.append_nil]
    exact holds
  | cons word rest ih =>
    rw [List.forall_mem_cons] at words_printable
    rw [List.flatten_cons, ink_append, ← List.append_assoc]
    exact ih (holds.addWord positive words_printable.1 isFirst) words_printable.2 false

end Holds

end Filling

/-! ## Whole paragraphs -/

/-- Rows that a paragraph is filled into: there is one at least, each is printable and no longer than
the columns that there are, and all together leave the ink of the paragraph. -/
structure FilledInto (columns : Nat) (paragraph : List Char) (rows : List (List Char)) : Prop where
  nonempty : rows ≠ []
  printable : ∀ row ∈ rows, Printable row
  short : ∀ row ∈ rows, row.length ≤ columns
  ink : ink rows.flatten = ink paragraph

theorem ink_flatten_rdropWhile (rows : List (List Char)) :
    ink (rows.map (List.rdropWhile (· = ' '))).flatten = ink rows.flatten := by
  induction rows with
  | nil => rfl
  | cons row rest ih =>
    rw [List.map_cons, List.flatten_cons, List.flatten_cons, ink_append, ink_append, ih,
      ink_rdropWhile]

/-- The rows in hand are trimmed in the end. -/
theorem Filling.Holds.filledInto {columns : Nat} {paragraph : List Char} {f : Filling}
    (holds : f.Holds columns (Text.ink paragraph)) :
    FilledInto columns paragraph (f.rows.map trimRow) := by
  have each : ∀ row ∈ f.rows, Printable row ∧ Fits columns row := by
    intro row member
    rcases List.mem_cons.mp (List.mem_reverse.mp member) with rfl | member
    · exact ⟨holds.printable, holds.fits⟩
    · exact holds.done row member
  have trimmed : f.rows.map trimRow = f.rows.map (List.rdropWhile (· = ' ')) :=
    List.map_congr_left fun row member => trimRow_eq (each row member).1
  rw [trimmed]
  refine ⟨by simp [rows], ?_, ?_, ?_⟩
  · intro _ member
    obtain ⟨row, inside, rfl⟩ := List.mem_map.mp member
    exact (each row inside).1.subset (List.rdropWhile_prefix _ _).subset
  · intro _ member
    obtain ⟨row, inside, rfl⟩ := List.mem_map.mp member
    exact (each row inside).2
  · rw [ink_flatten_rdropWhile, holds.ink]

theorem fillWords_filledInto {columns : Nat} (positive : 0 < columns) {paragraph : List Char}
    (printable : Printable paragraph) :
    FilledInto columns paragraph (fillWords columns paragraph) := by
  have words_printable : ∀ word ∈ split ' ' paragraph, Printable word := fun word member =>
    printable.subset fun _ inside => mem_of_mem_split member inside
  have ink_eq : ink (split ' ' paragraph).flatten = ink paragraph := by
    rw [← ink_join, join_split]
  have holds : (addWords columns true .empty (split ' ' paragraph)).Holds columns
      (ink paragraph) :=
    ink_eq ▸ Filling.Holds.empty.addWords positive words_printable true
  have filled := holds.filledInto
  unfold fillWords
  dsimp only
  generalize (addWords columns true .empty (split ' ' paragraph)).rows.map trimRow = rows at filled
  have quiet : Quiet (join '\n' rows) :=
    .join (by decide) fun row member => (filled.printable row member).quiet
  have unbroken : ∀ row ∈ rows, '\n' ∉ row := fun row member =>
    (filled.printable row member).not_mem (by decide)
  rw [reopenFrom_of_quiet quiet, split_join filled.nonempty unbroken]
  exact filled

theorem compose_of_printable {cs : List Char} (printable : Printable cs) : compose cs = cs := by
  have low : cs.all (·.toNat < firstMark) = true := by
    refine List.all_eq_true.mpr fun c member => decide_eq_true ?_
    exact Nat.lt_of_le_of_lt (printable c member).2 (by decide)
  rw [compose, if_pos low]

/-- A printable paragraph is filled into rows that are not too long, and nothing but spaces is put in
or taken away. -/
theorem fill_filledInto {columns : Nat} (positive : 0 < columns) {paragraph : List Char}
    (printable : Printable paragraph) : FilledInto columns paragraph (fill columns paragraph) := by
  unfold fill
  dsimp only
  rw [compose_of_printable printable]
  split
  · rename_i blank
    have spaces : ink paragraph = [] := by
      rw [← ink_trim printable, List.isEmpty_iff.mp blank]
      rfl
    exact ⟨List.cons_ne_nil _ _, by simp [Printable.nil], by simp, spaces.symm⟩
  · exact fillWords_filledInto positive printable

end Marginalia.Text
