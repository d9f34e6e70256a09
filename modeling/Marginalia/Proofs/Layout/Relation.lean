import Marginalia.Layout.Relation
import Marginalia.Proofs.Source.Chain
import Marginalia.Proofs.Span.Basic

/-!
# Spans along a chain of lines

A span with bytes that lies within a chain of lines is on one of them or runs from one to a later
one, and the lines in front of it and behind it have nothing to do with it.
-/

namespace Marginalia

namespace Relation

/-- The relations to lines one behind the other of a span that lies on one of them or runs from one
to a later one, with the indices of its first and of its last line. -/
inductive Follows : List Relation → Nat → Nat → Prop
  | single (above below : Nat) :
      Follows (.replicate above none ++ contained :: .replicate below none) above above
  | spread (above between below : Nat) :
      Follows (.replicate above none ++
          starts :: (.replicate between passes ++ ends :: .replicate below none))
        above (above + between + 1)

/-- One more line in front of the span. -/
theorem Follows.cons_none {relations : List Relation} {first last : Nat}
    (follows : Follows relations first last) :
    Follows (none :: relations) (first + 1) (last + 1) := by
  cases follows with
  | single _ below => exact .single (first + 1) below
  | spread _ between below =>
    have spread := Follows.spread (first + 1) between below
    rwa [Nat.add_right_comm first 1 between] at spread

/-- What a line with bytes is to a span with bytes. -/
theorem classify_eq {line : Line Int} {s : Span Int} (filled : line.offset < line.stop)
    (length : 0 < s.length) :
    classify line s =
      if line.stop ≤ s.offset ∨ s.stop ≤ line.offset then none
      else if line.offset ≤ s.offset then if s.stop ≤ line.stop then contained else starts
      else if line.stop < s.stop then passes else ends := by
  have stop_eq : s.stop = s.offset + s.length := rfl
  unfold classify
  rw [Span.isPoint_of_length_pos length, if_neg Bool.false_ne_true]
  by_cases apart : line.stop ≤ s.offset ∨ s.stop ≤ line.offset
  · rw [if_pos apart, if_neg (by omega), if_neg (by omega)]
    split
    · rw [if_neg (by omega), if_neg (by omega)]
    · rfl
  · rw [if_neg apart]
    by_cases begins : line.offset ≤ s.offset
    · rw [if_pos begins]
      by_cases stops : s.stop ≤ line.stop
      · rw [if_pos stops, if_pos ⟨begins, stops⟩]
      · rw [if_neg stops, if_neg (by omega), if_pos (by omega)]
    · rw [if_neg begins, if_neg (by omega), if_neg (by omega), if_pos (by omega),
        if_pos (show line.offset < s.stop by omega)]

end Relation

/-! ## Along the lines -/

namespace Line

theorem Formed.filled {line : Line Int} (formed : line.Formed) : line.offset < line.stop := by
  have length_eq := formed.length_eq
  have pos : 0 < Utf8.length line.text := by
    cases text_eq : line.text with
    | nil => exact absurd text_eq formed.nonempty
    | cons c rest =>
      have := Utf8.charSize_pos c
      rw [Utf8.length]
      omega
  show line.offset < line.offset + line.length
  omega

namespace Chain

variable {number : Nat} {offset : Int} {lines : List (Line Int)} {s : Span Int}

/-- The place behind the last line of a chain. -/
def stop (offset : Int) (lines : List (Line Int)) : Int :=
  offset + Utf8.length (lines.map text).flatten

theorem stop_cons {line : Line Int} {rest : List (Line Int)} (formed : line.Formed) :
    stop line.offset (line :: rest) = stop line.stop rest := by
  have length_eq := formed.length_eq
  show line.offset + _ = line.offset + line.length + _
  rw [List.map_cons, List.flatten_cons, Utf8.length_append]
  omega

/-- Behind a span there are no relations to it. -/
theorem relations_behind (chain : Chain number offset lines) (length : 0 < s.length)
    (passed : s.stop ≤ offset) :
    lines.map (Relation.classify · s) = .replicate lines.length .none := by
  induction chain with
  | nil => rfl
  | cons _ offset_eq formed _ ih =>
    have filled := formed.filled
    rw [List.map_cons, Relation.classify_eq filled length, if_pos (.inr (by omega)),
      ih (by omega), List.length_cons, List.replicate_succ]

/-- A span that has begun runs past some lines, ends on one and leaves the others alone. -/
theorem relations_within (chain : Chain number offset lines) (begun : s.offset < offset)
    (open_end : offset < s.stop) (covered : s.stop ≤ stop offset lines) :
    ∃ between below line, lines[between]? = some line ∧ line.offset < s.stop ∧
      s.stop ≤ line.stop ∧
      lines.map (Relation.classify · s) =
        .replicate between .passes ++ .ends :: .replicate below .none := by
  have length : 0 < s.length := by
    have stop_eq : s.stop = s.offset + s.length := rfl
    omega
  induction chain with
  | nil =>
    simp only [stop, List.map_nil, List.flatten_nil, Utf8.length] at covered
    omega
  | @cons number offset line rest number_eq offset_eq formed behind ih =>
    have filled := formed.filled
    rw [← offset_eq, stop_cons formed] at covered
    have relation := Relation.classify_eq filled length
    rw [if_neg (by omega), if_neg (by omega)] at relation
    by_cases more : line.stop < s.stop
    · rw [if_pos more] at relation
      obtain ⟨between, below, last, found, last_begun, last_stop, relations⟩ :=
        ih (by omega) more covered
      refine ⟨between + 1, below, last, found, last_begun, last_stop, ?_⟩
      rw [List.map_cons, relation, relations]
      rfl
    · rw [if_neg more] at relation
      refine ⟨0, rest.length, line, rfl, by omega, by omega, ?_⟩
      rw [List.map_cons, relation, behind.relations_behind length (by omega)]
      rfl

/-- A span within a chain of lines is drawn along it once, from the line of its first byte to the
line of its last one. -/
theorem exists_follows (chain : Chain number offset lines) (length : 0 < s.length)
    (begun : offset ≤ s.offset) (covered : s.stop ≤ stop offset lines) :
    ∃ i j first last,
      Relation.Follows (lines.map (Relation.classify · s)) i j ∧
      lines[i]? = some first ∧ first.offset ≤ s.offset ∧ s.offset < first.stop ∧
      lines[j]? = some last ∧ last.offset < s.stop ∧ s.stop ≤ last.stop := by
  have stop_eq : s.stop = s.offset + s.length := rfl
  induction chain with
  | nil =>
    simp only [stop, List.map_nil, List.flatten_nil, Utf8.length] at covered
    omega
  | @cons number offset line rest number_eq offset_eq formed behind ih =>
    have filled := formed.filled
    rw [← offset_eq, stop_cons formed] at covered
    have relation := Relation.classify_eq filled length
    -- the span begins on the first line that does not stop in front of it
    by_cases above : line.stop ≤ s.offset
    · rw [if_pos (.inl above)] at relation
      obtain ⟨i, j, first, last, follows, found⟩ := ih above covered
      refine ⟨i + 1, j + 1, first, last, ?_, found⟩
      rw [List.map_cons, relation]
      exact follows.cons_none
    · rw [if_neg (by omega), if_pos (by omega)] at relation
      by_cases ended : s.stop ≤ line.stop
      · rw [if_pos ended] at relation
        refine ⟨0, 0, line, line, ?_, rfl, by omega, by omega, rfl, by omega, ended⟩
        rw [List.map_cons, relation, behind.relations_behind length ended]
        exact .single 0 rest.length
      · rw [if_neg ended] at relation
        obtain ⟨between, below, last, found, last_begun, last_stop, relations⟩ :=
          behind.relations_within (by omega) (by omega) covered
        refine ⟨0, between + 1, line, last, ?_, rfl, by omega, by omega, found, last_begun,
          last_stop⟩
        rw [List.map_cons, relation, relations]
        have spread := Relation.Follows.spread 0 between below
        rwa [Nat.zero_add] at spread

end Chain

end Line

end Marginalia
