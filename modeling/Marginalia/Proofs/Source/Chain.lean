import Marginalia.Proofs.Text.Encoding
import Marginalia.Source.Line

/-!
# Lines one behind the other

Whatever the bytes of a window are, its lines are a chain: each begins where the one in front of it
stops, is as long as its own text and has no line feed but one at its end.  Nothing of the decoded
window is lost or moved.
-/

namespace Marginalia.Line

/-- A text of a line, and the same text without the terminator. -/
inductive Ends : List Char → List Char → Prop
  | returned (content : List Char) : Ends (content ++ ['\r', '\n']) content
  | fed (content : List Char) (kept : content.getLast? ≠ some '\r') :
      Ends (content ++ ['\n']) content
  | unended (content : List Char) (kept : content.getLast? ≠ some '\n') : Ends content content

/-- A line that is what its text makes of it. -/
structure Formed (line : Line Int) : Prop where
  nonempty : line.text ≠ []
  length_eq : line.length = Utf8.length line.text
  ends : Ends line.text line.content
  single : '\n' ∉ line.content

/-- Lines one behind the other, the first with the given number and place. -/
inductive Chain : Nat → Int → List (Line Int) → Prop
  | nil {number : Nat} {offset : Int} : Chain number offset []
  | cons {number : Nat} {offset : Int} {line : Line Int} {rest : List (Line Int)}
      (number_eq : line.number = number) (offset_eq : line.offset = offset)
      (formed : line.Formed) (behind : Chain (number + 1) line.stop rest) :
      Chain number offset (line :: rest)

/-! ## Pieces of a text -/

theorem flatten_pieces (cs : List Char) : (pieces cs).flatten = cs := by
  induction cs with
  | nil => rfl
  | cons c cs ih =>
    rw [pieces]
    split
    · rw [List.flatten_cons, ih]
      rfl
    · split
      · rename_i none
        rw [none] at ih
        simp [← ih]
      · rename_i piece others some
        rw [some, List.flatten_cons] at ih
        rw [List.flatten_cons, ← ih]
        rfl

/-- A piece has a line feed at its end at most. -/
theorem feed_not_mem_dropLast {cs piece : List Char} (member : piece ∈ pieces cs) :
    piece ≠ [] ∧ '\n' ∉ piece.dropLast := by
  induction cs generalizing piece with
  | nil => simp [pieces] at member
  | cons c cs ih =>
    rw [pieces] at member
    split at member
    · rcases List.mem_cons.mp member with rfl | member
      · simp
      · exact ih member
    · rename_i other
      split at member
      · cases List.mem_singleton.mp member
        simp
      · rename_i first others cut
        rcases List.mem_cons.mp member with rfl | member
        · obtain ⟨nonempty, absent⟩ := ih (cut ▸ List.mem_cons_self)
          rw [List.dropLast_cons_of_ne_nil nonempty, List.mem_cons, not_or]
          exact ⟨List.cons_ne_nil _ _, Ne.symm other, absent⟩
        · exact ih (cut ▸ List.mem_cons_of_mem _ member)

theorem ends_withoutTerminator (piece : List Char) : Ends piece (withoutTerminator piece) := by
  have reversed := List.reverse_reverse piece
  unfold withoutTerminator
  split
  · rename_i rest eq
    rw [eq] at reversed
    rw [← reversed]
    simpa using Ends.returned rest.reverse
  · rename_i rest other eq
    rw [eq] at reversed
    rw [← reversed, List.reverse_cons]
    refine .fed _ fun last => ?_
    rw [List.getLast?_reverse] at last
    obtain ⟨more, rfl⟩ := List.head?_eq_some_iff.mp last
    exact other more rfl
  · rename_i other
    refine .unended _ fun last => ?_
    rw [List.getLast?_eq_head?_reverse] at last
    obtain ⟨more, eq⟩ := List.head?_eq_some_iff.mp last
    exact other more eq

theorem Ends.feed_not_mem {text content : List Char} (ends : Ends text content)
    (absent : '\n' ∉ text.dropLast) : '\n' ∉ content := by
  cases ends with
  | returned =>
    rw [List.dropLast_append_of_ne_nil (by simp), List.mem_append, not_or] at absent
    exact absent.1
  | fed => simpa using absent
  | unended _ kept =>
    intro member
    have nonempty := List.ne_nil_of_mem member
    rw [← List.dropLast_concat_getLast nonempty, List.mem_append] at member
    rcases member with front | last
    · exact absent front
    · rw [List.getLast?_eq_some_getLast nonempty, List.mem_singleton.mp last] at kept
      exact kept rfl

/-- A line either has a terminator behind its content or is its content. -/
theorem Ends.length_lt_or {text content : List Char} (ends : Ends text content) :
    Utf8.length content < Utf8.length text ∨ content = text ∧ isTerminated text = false := by
  cases ends with
  | returned =>
    left
    rw [Utf8.length_append]
    exact Nat.lt_add_of_pos_right (by decide)
  | fed =>
    left
    rw [Utf8.length_append]
    exact Nat.lt_add_of_pos_right (by decide)
  | unended _ kept => exact .inr ⟨rfl, decide_eq_false kept⟩

/-! ## Pieces as lines -/

theorem pass_eq (place : Int) (cs : List Char) : pass place cs = place + Utf8.length cs := by
  fun_induction pass place cs with
  | case1 => simp [Utf8.length]
  | case2 place rest ih =>
    have sizes : Utf8.length ('\r' :: '\n' :: rest) = 2 + Utf8.length rest := by
      simp only [Utf8.length, ← Nat.add_assoc]
      rfl
    rw [ih, sizes, Int.natCast_add, ← Int.add_assoc]
  | case3 place c rest _ ih => rw [ih, Utf8.length, Int.natCast_add, ← Int.add_assoc]

theorem chain_place {pieces : List (List Char)} (size first : Nat) (offset : Int)
    (cut : ∀ piece ∈ pieces, piece ≠ [] ∧ '\n' ∉ piece.dropLast) :
    Chain first offset (place size first offset pieces) := by
  induction pieces generalizing first offset with
  | nil => exact .nil
  | cons piece rest ih =>
    obtain ⟨nonempty, absent⟩ := cut piece List.mem_cons_self
    have ends := ends_withoutTerminator piece
    refine .cons rfl rfl ⟨nonempty, ?_, ends, ends.feed_not_mem absent⟩ ?_
    · show pass offset piece - offset = Utf8.length piece
      rw [pass_eq]
      omega
    · have stop_eq : offset + (pass offset piece - offset) = pass offset piece := by omega
      have behind := ih (first + 1) (pass offset piece) fun other member =>
        cut other (List.mem_cons_of_mem _ member)
      rw [← stop_eq] at behind
      simpa only [stop, stop_eq] using behind

theorem map_text_place (size first : Nat) (offset : Int) (pieces : List (List Char)) :
    (place size first offset pieces).map text = pieces := by
  induction pieces generalizing first offset with
  | nil => rfl
  | cons piece rest ih => rw [place, List.map_cons, ih]

theorem length_place (size first : Nat) (offset : Int) (pieces : List (List Char)) :
    (place size first offset pieces).length = pieces.length := by
  rw [← List.length_map (f := text), map_text_place]

/-- The lines of a window are a chain from its first line and its beginning on. -/
theorem chain_scan (c : Contents Int) (size : Nat) :
    Chain (c.line + 1) c.start (scan c size) :=
  chain_place _ _ _ fun _ member => feed_not_mem_dropLast member

theorem flatten_text_scan (c : Contents Int) (size : Nat) :
    ((scan c size).map text).flatten = Utf8.decode c.data := by
  rw [scan, map_text_place, flatten_pieces]

namespace Chain

variable {number : Nat} {offset : Int} {lines : List (Line Int)}

theorem formed (chain : Chain number offset lines) : ∀ line ∈ lines, line.Formed := by
  induction chain with
  | nil => simp
  | cons _ _ formed _ ih => exact List.forall_mem_cons.mpr ⟨formed, ih⟩

/-- The lengths of the lines of a chain add up to the bytes of their texts. -/
theorem total_length (chain : Chain number offset lines) :
    lines.foldr (fun line total => line.length + total) (0 : Int) =
      Utf8.length (lines.map text).flatten := by
  induction chain with
  | nil => rfl
  | cons _ _ formed _ ih =>
    rw [List.foldr_cons, ih, formed.length_eq, List.map_cons, List.flatten_cons,
      Utf8.length_append, Int.natCast_add]

end Chain

end Marginalia.Line
