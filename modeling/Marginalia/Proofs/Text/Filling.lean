import Marginalia.Proofs.Text.Composition
import Marginalia.Proofs.Text.Splitting
import Marginalia.Text.Wrap

/-!
# Filled rows of quiet text

Filling only moves the characters of a paragraph and drops blanks, and it ends and begins escapes
again only where the paragraph has some.  So the rows of a text that begins no escape begin none.
-/

namespace Marginalia.Text

/-! ## Pieces -/

namespace Quiet

variable {separator : Char} {cs : List Char} {pieces : List (List Char)}

theorem split (quiet : Quiet cs) : ∀ piece ∈ split separator cs, Quiet piece :=
  fun _ member => quiet.subset fun _ inside => mem_of_mem_split member inside

theorem join (quiet_separator : beginsEscape separator = false)
    (quiet : ∀ piece ∈ pieces, Quiet piece) : Quiet (join separator pieces) := by
  intro c member
  rcases mem_of_mem_join member with rfl | ⟨piece, inside, has⟩
  · exact quiet_separator
  · exact quiet piece inside c has

theorem trimStart (quiet : Quiet cs) : Quiet (trimStart cs) :=
  quiet.subset (List.dropWhile_sublist _).subset

/-- Blanks go from the end of a row, and nothing comes to it. -/
theorem trimRow (quiet : Quiet cs) : Quiet (trimRow cs) := by
  have words : ∀ word ∈ Text.split ' ' cs, Quiet word := quiet.split
  unfold Text.trimRow
  dsimp only
  split
  · exact quiet
  · rw [append_iff]
    constructor
    · exact .join (by decide) fun word member => words word (List.mem_of_mem_take member)
    · intro c member
      obtain ⟨word, hidden, inside⟩ := List.mem_flatten.mp member
      have taken := (List.takeWhile_sublist _).subset (List.mem_reverse.mp hidden)
      exact words word (List.mem_reverse.mp taken) c inside

end Quiet

/-! ## Rows in hand -/

/-- Rows that are being filled with quiet text. -/
structure Filling.Quiet (f : Filling) : Prop where
  done : ∀ row ∈ f.done, Text.Quiet row
  last : Text.Quiet f.last

namespace Filling.Quiet

variable {f : Filling} {columns visible : Nat} {word : List Char}

theorem rows (quiet : f.Quiet) : ∀ row ∈ f.rows, Text.Quiet row := by
  intro row member
  rcases List.mem_cons.mp (List.mem_reverse.mp member) with rfl | member
  · exact quiet.last
  · exact quiet.done row member

theorem push (quiet : f.Quiet) {row : List Char} (quiet_row : Text.Quiet row) :
    (f.push row).Quiet :=
  ⟨List.forall_mem_cons.mpr ⟨quiet.last, quiet.done⟩, quiet_row⟩

theorem append (quiet : f.Quiet) {text : List Char} (quiet_text : Text.Quiet text) :
    (f.append text).Quiet :=
  ⟨quiet.done, Text.Quiet.append_iff.mpr ⟨quiet.last, quiet_text⟩⟩

theorem rejoin (quiet : f.Quiet) : f.rejoin.Quiet := by
  unfold Filling.rejoin
  split
  · exact quiet
  · rename_i row done eq
    have rows := quiet.done
    rw [eq, List.forall_mem_cons] at rows
    exact ⟨rows.2, Text.Quiet.append_iff.mpr ⟨rows.1, quiet.last⟩⟩

theorem breakWord (quiet : f.Quiet) (quiet_word : Text.Quiet word) (state : BreakState) :
    (breakWord columns f visible state word).1.Quiet := by
  induction word generalizing f visible state with
  | nil => exact quiet
  | cons c rest ih =>
    rw [Text.Quiet.cons_iff] at quiet_word
    have quiet_char : Text.Quiet [c] := Text.Quiet.cons_iff.mpr ⟨quiet_word.1, .nil⟩
    rw [Text.breakWord]
    generalize put : (if visible + clusteredWidth [c] ≤ columns then f.append [c]
      else f.push [c]) = grown
    generalize (if beginsEscape c = true then
      if linkStart.isPrefixOf rest = true then BreakState.link else BreakState.code
      else state) = next
    have quiet_grown : grown.Quiet := by
      rw [← put]
      split
      · exact quiet.append quiet_char
      · exact quiet.push quiet_char
    generalize (if visible + clusteredWidth [c] ≤ columns then visible else 0) = taken
    cases next with
    | link | code => exact ih quiet_grown quiet_word.2 _
    | text =>
      dsimp only
      split
      · exact ih (quiet_grown.push .nil) quiet_word.2 _
      · exact ih quiet_grown quiet_word.2 _

theorem addBroken (quiet : f.Quiet) (quiet_word : Text.Quiet word) :
    (addBroken columns f word).Quiet := by
  have broken := @breakWord f columns (clusteredWidth f.last) word quiet quiet_word .text
  unfold Text.addBroken
  dsimp only
  split
  · exact broken.rejoin
  · exact broken

theorem addWord (quiet : f.Quiet) (quiet_word : Text.Quiet word) (isFirst : Bool) :
    (addWord columns isFirst f word).Quiet := by
  unfold Text.addWord
  dsimp only
  generalize put : (if (!isFirst && decide (0 < clusteredWidth (Text.trimStart f.last))) = true
    then Text.trimStart f.last ++ [' '] else Text.trimStart f.last) = last
  generalize (if (!isFirst && decide (0 < clusteredWidth (Text.trimStart f.last))) = true
    then clusteredWidth (Text.trimStart f.last) + 1
    else clusteredWidth (Text.trimStart f.last)) = taken
  have started : (⟨f.done, last⟩ : Filling).Quiet := by
    refine ⟨quiet.done, ?_⟩
    rw [← put]
    split
    · exact Text.Quiet.append_iff.mpr
        ⟨quiet.last.trimStart, Text.Quiet.cons_iff.mpr ⟨by decide, .nil⟩⟩
    · exact quiet.last.trimStart
  split
  · split
    · exact (started.push .nil).addBroken quiet_word
    · exact started.addBroken quiet_word
  · split
    · exact started.push quiet_word
    · exact started.append quiet_word

theorem addWords (quiet : f.Quiet) {words : List (List Char)}
    (quiet_words : ∀ word ∈ words, Text.Quiet word) (isFirst : Bool) :
    (addWords columns isFirst f words).Quiet := by
  induction words generalizing f isFirst with
  | nil => exact quiet
  | cons word rest ih =>
    rw [List.forall_mem_cons] at quiet_words
    exact ih (quiet.addWord quiet_words.1 isFirst) quiet_words.2 false

end Filling.Quiet

/-! ## Whole paragraphs -/

/-- Where nothing begins an escape nothing is in force. -/
theorem reopenFrom_of_quiet {cs : List Char} (quiet : Quiet cs) :
    reopenFrom ⟨none, none⟩ cs = cs := by
  induction cs with
  | nil => rfl
  | cons c rest ih =>
    rw [Quiet.cons_iff] at quiet
    have nothing : (if rest.head? = some '\n' then Force.off ⟨none, none⟩
        else if c = '\n' then Force.on ⟨none, none⟩ else []) = [] := by
      split
      · rfl
      · split <;> rfl
    simp only [reopenFrom, quiet.1, Bool.false_eq_true, if_false, nothing, ih quiet.2,
      List.singleton_append]

theorem fill_quiet (columns : Nat) {paragraph : List Char} (quiet : Quiet paragraph) :
    ∀ row ∈ fill columns paragraph, Quiet row := by
  have composed := compose_quiet quiet
  unfold fill
  dsimp only
  split
  · simp [Quiet.nil]
  · have filled : (addWords columns true .empty (split ' ' (compose paragraph))).Quiet :=
      Filling.Quiet.addWords ⟨by simp [Filling.empty], .nil⟩ composed.split true
    have trimmed : Quiet (join '\n' ((addWords columns true .empty
        (split ' ' (compose paragraph))).rows.map trimRow)) := by
      refine .join (by decide) fun piece member => ?_
      obtain ⟨row, row_member, rfl⟩ := List.mem_map.mp member
      exact (filled.rows row row_member).trimRow
    rw [fillWords, reopenFrom_of_quiet trimmed]
    exact trimmed.split

/-- The pieces of a text that begins no escape begin none. -/
theorem Wrapping.pieces_quiet (w : Wrapping) {text : List Char} (quiet : Quiet text) :
    ∀ piece ∈ w.pieces text, Quiet piece := by
  intro piece member
  obtain ⟨paragraph, inside, member⟩ := List.mem_flatMap.mp member
  exact fill_quiet w.room (quiet.split paragraph inside) piece member

end Marginalia.Text
