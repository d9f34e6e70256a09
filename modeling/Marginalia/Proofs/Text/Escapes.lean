import Mathlib.Data.List.Basic
import Mathlib.Data.List.TakeWhile
import Marginalia.Text.Escape

/-!
# Escapes found and taken out

A matcher counts characters.  `Matcher.Finds` says what stands at the head of a text when it counts
some: an escape of a given kind, whatever is behind it.  So what becomes of two texts side by side
can be read off the shape of the escapes alone.  Unless an escape that begins in the first text goes
on into the second one, each of the two loses its own escapes, and one that is cut off at the end of
the first text stays there as it is.
-/

namespace Marginalia.Text

/-! ## Escapes taken out -/

section

variable {matcher : Matcher} {c : Char} {front rest : List Char}

theorem removeFrom_eq_drop (passing : Nat) (cs : List Char) :
    removeFrom matcher passing cs = remove matcher (cs.drop passing) := by
  induction cs generalizing passing with
  | nil => simp [remove, removeFrom]
  | cons c rest ih =>
    cases passing with
    | zero => rfl
    | succ passing => exact ih passing

theorem remove_cons_of_none (kept : matcher (c :: rest) = none) :
    remove matcher (c :: rest) = c :: remove matcher rest := by
  simp only [remove, removeFrom, kept]

theorem remove_append_of_some (nonempty : front ≠ [])
    (found : matcher (front ++ rest) = some front.length) :
    remove matcher (front ++ rest) = remove matcher rest := by
  obtain ⟨c, more, rfl⟩ := List.exists_cons_of_ne_nil nonempty
  rw [List.length_cons, List.cons_append] at found
  rw [List.cons_append]
  simp only [remove, removeFrom, found]
  rw [removeFrom_eq_drop, List.drop_left]
  rfl

end

/-! ## What a matcher finds -/

/-- A matcher finds the escapes of a kind: it counts the characters of the one at the head of a
text, and none if no escape of the kind stands there. -/
def Matcher.Finds (matcher : Matcher) (IsEscape : List Char → Prop) : Prop :=
  ∀ cs length, matcher cs = some length ↔
    ∃ escape rest, IsEscape escape ∧ cs = escape ++ rest ∧ length = escape.length

/-- No escape of a kind that begins in front of a text goes on into it. -/
def Apart (IsEscape : List Char → Prop) (back : List Char) : Prop :=
  ∀ front inside, front ≠ [] → inside ≠ [] → IsEscape (front ++ inside) → ¬ inside <+: back

namespace Matcher.Finds

variable {matcher : Matcher} {IsEscape : List Char → Prop} {front back cs : List Char}

theorem append_eq_some (finds : matcher.Finds IsEscape) {escape : List Char}
    (is_escape : IsEscape escape) (rest : List Char) :
    matcher (escape ++ rest) = some escape.length :=
  (finds _ _).mpr ⟨escape, rest, is_escape, rfl, rfl⟩

theorem eq_none (finds : matcher.Finds IsEscape)
    (absent : ∀ escape, IsEscape escape → ¬ escape <+: cs) : matcher cs = none := by
  cases found : matcher cs with
  | none => rfl
  | some length =>
    obtain ⟨escape, rest, is_escape, rfl, -⟩ := (finds _ _).mp found
    exact absurd (List.prefix_append _ _) (absent escape is_escape)

theorem le_length (finds : matcher.Finds IsEscape) {length : Nat} (found : matcher cs = some length) :
    length ≤ cs.length := by
  obtain ⟨escape, rest, -, rfl, rfl⟩ := (finds _ _).mp found
  simp

/-- The escape at the head of a text is the same with more text behind it. -/
theorem append_eq (finds : matcher.Finds IsEscape) (apart : Apart IsEscape back)
    (nonempty : front ≠ []) : matcher (front ++ back) = matcher front := by
  apply Option.ext
  intro length
  rw [finds, finds]
  constructor
  · rintro ⟨escape, rest, is_escape, split, counted⟩
    rcases List.append_eq_append_iff.mp split with ⟨inside, rfl, rfl⟩ | ⟨between, rfl, rfl⟩
    · -- The escape takes up the whole front, and must not go on behind it.
      cases inside with
      | nil => exact ⟨front, [], by simpa using is_escape, by simp, by simpa using counted⟩
      | cons c inside =>
        exact absurd (List.prefix_append _ _) (apart _ _ nonempty (by simp) is_escape)
    · exact ⟨escape, between, is_escape, rfl, counted⟩
  · rintro ⟨escape, rest, is_escape, rfl, counted⟩
    exact ⟨escape, rest ++ back, is_escape, by simp, counted⟩

theorem removeFrom_append (finds : matcher.Finds IsEscape) (apart : Apart IsEscape back)
    {passing : Nat} (fits : passing ≤ cs.length) :
    removeFrom matcher passing (cs ++ back) =
      removeFrom matcher passing cs ++ remove matcher back := by
  -- What is being passed ends in the first text, so nothing is left to pass in the second one.
  induction cs generalizing passing with
  | nil =>
    cases Nat.le_zero.mp fits
    rfl
  | cons c cs ih =>
    cases passing with
    | succ passing => exact ih (Nat.le_of_succ_le_succ fits)
    | zero =>
      have same := finds.append_eq apart (List.cons_ne_nil c cs)
      rw [List.cons_append] at same
      rw [List.cons_append, removeFrom, removeFrom, same]
      split
      · rename_i length found
        exact ih (Nat.le_of_succ_le_succ (finds.le_length found))
      · exact congrArg (c :: ·) (ih (Nat.zero_le _))

/-- Texts that no escape joins lose their escapes each on its own. -/
theorem remove_append (finds : matcher.Finds IsEscape) (apart : Apart IsEscape back)
    (cs : List Char) : remove matcher (cs ++ back) = remove matcher cs ++ remove matcher back :=
  finds.removeFrom_append apart (Nat.zero_le _)

end Matcher.Finds

/-! ## Kinds of escapes -/

/-- The escapes that select a rendition by codes. -/
def IsRendition (escape : List Char) : Prop :=
  ∃ codes, (∀ c ∈ codes, isCode c = true) ∧ escape = esc :: '[' :: (codes ++ ['m'])

/-- The characters that end a link's escape. -/
inductive EndsLink : List Char → Prop
  | bell : EndsLink [bell]
  | escape : EndsLink [esc, '\\']

/-- The escapes that begin or end a link. -/
def IsLink (escape : List Char) : Prop :=
  ∃ text closing, (∀ c ∈ text, isLinkText c = true) ∧ EndsLink closing ∧
    escape = esc :: ']' :: '8' :: ';' :: (text ++ closing)

/-- The escapes that a report writes. -/
def IsReportEscape (escape : List Char) : Prop := IsRendition escape ∨ IsLink escape

theorem takeWhile_append_cons {p : Char → Bool} {cs : List Char} {c : Char}
    (all : ∀ c ∈ cs, p c = true) (ends : p c = false) (rest : List Char) :
    (cs ++ c :: rest).takeWhile p = cs := by
  rw [List.takeWhile_append_of_pos all, List.takeWhile_cons_of_neg (by simp [ends]),
    List.append_nil]

/-- Where something stands behind the longest front that has a property, the text is the two. -/
theorem eq_takeWhile_append {p : Char → Bool} {cs behind : List Char}
    (rest : cs.drop (cs.takeWhile p).length = behind) : cs = cs.takeWhile p ++ behind := by
  have front := List.prefix_iff_eq_append.mp (List.takeWhile_prefix (l := cs) p)
  rw [rest] at front
  exact front.symm

theorem renditionEscape_finds : renditionEscape.Finds IsRendition := by
  intro cs length
  constructor
  · intro found
    unfold renditionEscape at found
    split at found
    · rename_i body
      dsimp only at found
      split at found
      · rename_i more behind
        cases found
        have parts := eq_takeWhile_append behind
        refine ⟨_, more, ⟨body.takeWhile isCode, fun c => List.mem_takeWhile_imp, rfl⟩, ?_, ?_⟩
        · simp [esc, ← parts]
        · simp
      · cases found
    · cases found
  · rintro ⟨escape, rest, ⟨codes, all, rfl⟩, rfl, rfl⟩
    have taken : (codes ++ 'm' :: rest).takeWhile isCode = codes :=
      takeWhile_append_cons all (by decide) rest
    simp [renditionEscape, esc, taken]

theorem linkEscape_finds : linkEscape.Finds IsLink := by
  intro cs length
  constructor
  · intro found
    unfold linkEscape at found
    split at found
    · rename_i body
      have all : ∀ c ∈ body.takeWhile isLinkText, isLinkText c = true := fun c =>
        List.mem_takeWhile_imp
      dsimp only at found
      split at found
      · rename_i more behind
        cases found
        have parts := eq_takeWhile_append behind
        refine ⟨_, more, ⟨_, _, all, .bell, rfl⟩, ?_, ?_⟩
        · simp [esc, bell, ← parts]
        · simp
      · rename_i more behind
        cases found
        have parts := eq_takeWhile_append behind
        refine ⟨_, more, ⟨_, _, all, .escape, rfl⟩, ?_, ?_⟩
        · simp [esc, ← parts]
        · simp
      · cases found
    · cases found
  · rintro ⟨escape, rest, ⟨text, closing, all, ends, rfl⟩, rfl, rfl⟩
    cases ends with
    | bell =>
      have taken : (text ++ bell :: rest).takeWhile isLinkText = text :=
        takeWhile_append_cons all (by decide) rest
      simp only [bell] at taken
      simp [linkEscape, esc, bell, taken]
    | escape =>
      have taken : (text ++ esc :: '\\' :: rest).takeWhile isLinkText = text :=
        takeWhile_append_cons all (by decide) _
      simp only [esc] at taken
      simp [linkEscape, esc, taken]

theorem reportEscape_finds : reportEscape.Finds IsReportEscape := by
  intro cs length
  have either : reportEscape cs = some length ↔ renditionEscape cs = some length ∨
      renditionEscape cs = none ∧ linkEscape cs = some length := by
    simp [reportEscape, Option.or_eq_some_iff]
  rw [either, renditionEscape_finds, linkEscape_finds]
  constructor
  · rintro (⟨escape, rest, rendition, found⟩ | ⟨-, escape, rest, link, found⟩)
    · exact ⟨escape, rest, .inl rendition, found⟩
    · exact ⟨escape, rest, .inr link, found⟩
  · rintro ⟨escape, rest, rendition | link, split, counted⟩
    · exact .inl ⟨escape, rest, rendition, split, counted⟩
    · -- Behind the escape character of a link there is another bracket than in a rendition.
      refine .inr ⟨?_, escape, rest, link, split, counted⟩
      obtain ⟨text, closing, -, -, rfl⟩ := link
      rw [split]
      rfl

/-! ## Texts that no escape joins -/

theorem apart_cons {IsEscape : List Char → Prop} {c : Char} {rest : List Char}
    (each : ∀ d front inside, IsEscape (d :: (front ++ c :: inside)) → ¬ inside <+: rest) :
    Apart IsEscape (c :: rest) := by
  intro front inside nonempty goes_on is_escape within
  obtain ⟨d, front, rfl⟩ := List.exists_cons_of_ne_nil nonempty
  obtain ⟨e, inside, rfl⟩ := List.exists_cons_of_ne_nil goes_on
  obtain ⟨rfl, behind⟩ := List.cons_prefix_cons.mp within
  exact each d front inside is_escape behind

/-- A rendition does not go on into a text that begins with none of its characters. -/
theorem rendition_apart {c : Char} (bracket : c ≠ '[') (code : isCode c = false) (final : c ≠ 'm')
    (rest : List Char) : Apart IsRendition (c :: rest) := by
  apply apart_cons
  rintro d front inside ⟨codes, all, eq⟩ -
  have member : c ∈ '[' :: (codes ++ ['m']) := by
    rw [← (List.cons.inj eq).2]
    simp
  rcases List.mem_cons.mp member with eq | member
  · exact bracket eq
  · rcases List.mem_append.mp member with member | member
    · rw [all c member] at code
      cases code
    · exact final (List.mem_singleton.mp member)

/-- An escape that ends a link has its escape character only in front of a backslash, so a link does
not go on into a text that begins with another escape. -/
theorem link_apart {c : Char} (other : c ≠ '\\') (rest : List Char) :
    Apart IsLink (esc :: c :: rest) := by
  apply apart_cons
  rintro d front inside ⟨text, closing, all, ends, eq⟩ within
  have unescaped : esc ∉ ']' :: '8' :: ';' :: text := by
    intro member
    have in_text : esc ∈ text := by simpa [esc] using member
    exact absurd (all esc in_text) (by decide)
  have behind : ']' :: '8' :: ';' :: text ++ closing = front ++ esc :: inside :=
    (List.cons.inj eq).2.symm
  cases ends with
  | bell =>
    have member : esc ∈ ']' :: '8' :: ';' :: text ++ [bell] := by
      rw [behind]
      simp
    rcases List.mem_append.mp member with member | member
    · exact unescaped member
    · exact absurd (List.mem_singleton.mp member) (by decide)
  | escape =>
    obtain ⟨-, -, rfl⟩ := (List.append_cons_inj_of_notMem unescaped (by decide)).mp behind
    exact other (List.cons_prefix_cons.mp within).1.symm

/-- An escape that is cut off does not go on with the first characters of a link. -/
theorem reportEscape_apart_linkTo (target closing rest : List Char) :
    Apart IsReportEscape (linkTo target closing ++ rest) := by
  intro front inside nonempty goes_on is_escape
  rcases is_escape with rendition | link
  · exact rendition_apart (by decide) (by decide) (by decide) _ front inside nonempty goes_on
      rendition
  · exact link_apart (by decide) _ front inside nonempty goes_on link

/-! ## Links -/

section

variable {target closing : List Char}

theorem isLink_linkTo (unescaped : esc ∉ target) (silent : bell ∉ target)
    (ends : EndsLink closing) : IsLink (linkTo target closing) := by
  refine ⟨';' :: target, closing, ?_, ends, ?_⟩
  · intro c member
    rcases List.mem_cons.mp member with rfl | member
    · decide
    · have not_esc : c ≠ esc := ne_of_mem_of_not_mem member unescaped
      have not_bell : c ≠ bell := ne_of_mem_of_not_mem member silent
      simp [isLinkText, not_esc, not_bell]
  · simp [linkTo, linkStart]

/-- The escape of a link is taken out wherever it stands, and so is nothing else on its account: the
texts around it lose their own escapes. -/
theorem remove_append_linkTo (unescaped : esc ∉ target) (silent : bell ∉ target)
    (ends : EndsLink closing) (front back : List Char) :
    remove reportEscape (front ++ (linkTo target closing ++ back)) =
      remove reportEscape front ++ remove reportEscape back := by
  have nonempty : linkTo target closing ≠ [] := List.cons_ne_nil _ _
  have found := reportEscape_finds.append_eq_some (.inr (isLink_linkTo unescaped silent ends)) back
  rw [reportEscape_finds.remove_append (reportEscape_apart_linkTo target closing back),
    remove_append_of_some nonempty found]

end

end Marginalia.Text
