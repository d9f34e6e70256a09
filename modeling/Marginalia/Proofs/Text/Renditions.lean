import Marginalia.Proofs.Text.Escapes
import Marginalia.Style

/-!
# Renditions put into a text

`Adorned` says that one text is another with escapes put in that select renditions, and nothing
else.  Such a text is what a style makes of a text without escapes.  When the escapes are taken out
the other text is left, and what stands behind it takes no part in that.
-/

namespace Marginalia.Text

/-! ## Texts without escapes -/

theorem esc_ne_space : esc ≠ ' ' := by decide

theorem esc_not_mem_blanks (count : Nat) : esc ∉ List.replicate count ' ' := fun member =>
  esc_ne_space (List.eq_of_mem_replicate member)

theorem esc_not_mem_append {s t : String} (front : esc ∉ s.toList) (back : esc ∉ t.toList) :
    esc ∉ (s ++ t).toList := by
  rw [String.toList_append, List.mem_append, not_or]
  exact ⟨front, back⟩

theorem esc_not_mem_join {parts : List String} (each : ∀ part ∈ parts, esc ∉ part.toList) :
    esc ∉ (String.join parts).toList := by
  have joined (front : String) (unescaped : esc ∉ front.toList) :
      esc ∉ (parts.foldl (· ++ ·) front).toList := by
    induction parts generalizing front with
    | nil => exact unescaped
    | cons part rest ih =>
      obtain ⟨first, others⟩ := List.forall_mem_cons.mp each
      exact ih others _ (esc_not_mem_append unescaped first)
  exact joined "" (by decide)

theorem isDigit_of_mem_toString {c : Char} (n : Nat) (member : c ∈ (toString n).toList) :
    c.isDigit = true := by
  rw [Nat.toString_eq_repr, Nat.toList_repr] at member
  exact Nat.isDigit_of_mem_toDigits (by decide) (Nat.le_refl _) member

theorem esc_not_mem_toString (n : Nat) : esc ∉ (toString n).toList := fun member =>
  absurd (isDigit_of_mem_toString n member) (by decide)

/-! ## What the matchers find -/

theorem select_ne_nil (code : Nat) : select code ≠ [] := List.cons_ne_nil _ _

theorem isRendition_select (code : Nat) : IsRendition (select code) := by
  refine ⟨(toString code).toList, ?_, rfl⟩
  intro c member
  rw [isCode, isDigit_of_mem_toString code member, Bool.true_or]

theorem renditionEscape_select (code : Nat) (rest : List Char) :
    renditionEscape (select code ++ rest) = some (select code).length :=
  renditionEscape_finds.append_eq_some (isRendition_select code) rest

theorem renditionEscape_of_ne {c : Char} (other : c ≠ esc) (rest : List Char) :
    renditionEscape (c :: rest) = none := by
  apply renditionEscape_finds.eq_none
  rintro escape ⟨codes, -, rfl⟩ within
  exact other (List.cons_prefix_cons.mp within).1.symm

/-- Other escapes select no rendition. -/
theorem renditionEscape_of_other {c : Char} (other : c ≠ '[') (rest : List Char) :
    renditionEscape (esc :: c :: rest) = none := by
  apply renditionEscape_finds.eq_none
  rintro escape ⟨codes, -, rfl⟩ within
  have behind := (List.cons_prefix_cons.mp within).2
  exact other (List.cons_prefix_cons.mp behind).1.symm

theorem reportEscape_select (code : Nat) (rest : List Char) :
    reportEscape (select code ++ rest) = some (select code).length :=
  reportEscape_finds.append_eq_some (.inl (isRendition_select code)) rest

theorem reportEscape_of_ne {c : Char} (other : c ≠ esc) (rest : List Char) :
    reportEscape (c :: rest) = none := by
  apply reportEscape_finds.eq_none
  rintro escape (⟨codes, -, rfl⟩ | ⟨text, closing, -, -, rfl⟩) within
  · exact other (List.cons_prefix_cons.mp within).1.symm
  · exact other (List.cons_prefix_cons.mp within).1.symm

/-! ## Texts without renditions -/

/-- A text without the escapes that select renditions. -/
def unadorned (cs : List Char) : List Char := remove renditionEscape cs

/-- Renditions are taken out of each line on its own. -/
theorem unadorned_append_feed (cs rest : List Char) :
    unadorned (cs ++ '\n' :: rest) = unadorned cs ++ '\n' :: unadorned rest := by
  have apart : Apart IsRendition ('\n' :: rest) :=
    rendition_apart (by decide) (by decide) (by decide) rest
  have feed : '\n' ≠ esc := by decide
  have kept := remove_cons_of_none (renditionEscape_of_ne feed rest)
  rw [unadorned, renditionEscape_finds.remove_append apart, kept]
  rfl

/-! ## Adorned texts -/

/-- A text with escapes put in that select renditions.  The text may hold escapes of its own, but no
bracket stands behind them, so that they are none of that kind. -/
inductive Adorned : List Char → List Char → Prop
  | nil : Adorned [] []
  | select {u p : List Char} (code : Nat) (behind : Adorned u p) :
      Adorned (Text.select code ++ u) p
  | plain {u p : List Char} {c : Char} (other : c ≠ esc) (behind : Adorned u p) :
      Adorned (c :: u) (c :: p)
  | escape {u p : List Char} {c : Char} (other : c ≠ esc) (unbracketed : c ≠ '[')
      (behind : Adorned u p) : Adorned (esc :: c :: u) (esc :: c :: p)

namespace Adorned

variable {u v p q : List Char}

theorem append (front : Adorned u p) (back : Adorned v q) : Adorned (u ++ v) (p ++ q) := by
  induction front with
  | nil => exact back
  | select code _ ih =>
    rw [List.append_assoc]
    exact .select code ih
  | plain other _ ih => exact .plain other ih
  | escape other unbracketed _ ih => exact .escape other unbracketed ih

/-- The text that is adorned. -/
theorem bare (adorned : Adorned u p) : Adorned p p := by
  induction adorned with
  | nil => exact .nil
  | select _ _ ih => exact ih
  | plain other _ ih => exact .plain other ih
  | escape other unbracketed _ ih => exact .escape other unbracketed ih

theorem of_unescaped {cs : List Char} (unescaped : esc ∉ cs) : Adorned cs cs := by
  induction cs with
  | nil => exact .nil
  | cons c rest ih =>
    rw [List.mem_cons, not_or] at unescaped
    exact .plain (Ne.symm unescaped.1) (ih unescaped.2)

/-- The renditions are taken out, whatever stands behind them. -/
theorem unadorned_append (adorned : Adorned u p) (rest : List Char) :
    unadorned (u ++ rest) = p ++ unadorned rest := by
  unfold unadorned
  induction adorned with
  | nil => rfl
  | select code _ ih =>
    rw [List.append_assoc, remove_append_of_some (select_ne_nil code)
      (renditionEscape_select code _), ih]
  | plain other _ ih =>
    rw [List.cons_append, remove_cons_of_none (renditionEscape_of_ne other _), ih]
    rfl
  | escape other unbracketed _ ih =>
    rw [List.cons_append, List.cons_append,
      remove_cons_of_none (renditionEscape_of_other unbracketed _),
      remove_cons_of_none (renditionEscape_of_ne other _), ih]
    rfl

theorem unadorned_eq (adorned : Adorned u p) : unadorned u = p := by
  have removed := adorned.unadorned_append []
  rw [List.append_nil] at removed
  exact removed.trans (List.append_nil p)

/-- The escapes of a report in an adorned text are its renditions, if the text has none itself. -/
theorem remove_reportEscape_eq (adorned : Adorned u p) (unescaped : esc ∉ p) :
    remove reportEscape u = p := by
  induction adorned with
  | nil => rfl
  | select code _ ih =>
    rw [remove_append_of_some (select_ne_nil code) (reportEscape_select code _), ih unescaped]
  | plain other _ ih =>
    rw [remove_cons_of_none (reportEscape_of_ne other _), ih (List.not_mem_of_not_mem_cons unescaped)]
  | escape _ _ _ _ => exact absurd List.mem_cons_self unescaped

end Adorned

end Marginalia.Text

/-! ## Styles -/

namespace Marginalia

open Text (Adorned esc)

theorem Rendition.reopen_of_unescaped (r : Rendition) {cs : List Char} (unescaped : esc ∉ cs) :
    r.reopen 0 cs = cs := by
  induction cs with
  | nil => rfl
  | cons c rest ih =>
    rw [List.mem_cons, not_or] at unescaped
    have unended : r.off.isPrefixOf (c :: rest) = false := by
      have different : (esc == c) = false := beq_false_of_ne unescaped.1
      simp only [off, Text.select, List.cons_append, List.isPrefixOf, different, Bool.false_and]
    rw [reopen, unended]
    exact congrArg (c :: ·) (ih unescaped.2)

namespace Style

variable {u p : List Char}

theorem acrossEscapes_of_unescaped (s : Style) {cs : List Char} (unescaped : esc ∉ cs) :
    s.acrossEscapes cs = cs := by
  induction s with
  | nil => rfl
  | cons r rest ih =>
    rw [acrossEscapes, List.foldr_cons]
    exact (congrArg (r.reopen 0) ih).trans (r.reopen_of_unescaped unescaped)

theorem on_adorned (s : Style) (behind : Adorned u p) : Adorned (s.on ++ u) p := by
  induction s with
  | nil => exact behind
  | cons r rest ih =>
    rw [on, List.flatMap_cons, List.append_assoc]
    exact .select r.opening ih

theorem off_adorned (s : Style) (behind : Adorned u p) : Adorned (s.off ++ u) p := by
  rw [off]
  induction s.reverse with
  | nil => exact behind
  | cons r rest ih =>
    rw [List.flatMap_cons, List.append_assoc]
    exact .select r.closing ih

theorem acrossLines_adorned (s : Style) {cs : List Char} (unescaped : esc ∉ cs) :
    Adorned (s.acrossLines cs) cs := by
  fun_induction acrossLines s cs with
  | case1 => exact .nil
  | case2 rest ih =>
    exact s.off_adorned (.plain (by decide) (.plain (by decide) (s.on_adorned
      (ih fun member => unescaped (.tail _ (.tail _ member))))))
  | case3 rest ih =>
    exact s.off_adorned (.plain (by decide) (s.on_adorned
      (ih fun member => unescaped (.tail _ member))))
  | case4 c rest _ _ ih =>
    rw [List.mem_cons, not_or] at unescaped
    exact .plain (Ne.symm unescaped.1) (ih unescaped.2)

/-- A style puts renditions into a text without escapes and does nothing else to it. -/
theorem paint_adorned (s : Style) {cs : List Char} (unescaped : esc ∉ cs) :
    Adorned (s.paint cs) cs := by
  rw [paint]
  split
  · rename_i empty
    rw [List.isEmpty_iff.mp empty]
    exact .nil
  · rw [s.acrossEscapes_of_unescaped unescaped, List.append_assoc]
    have ended := (s.acrossLines_adorned unescaped).append (s.off_adorned .nil)
    rw [List.append_nil, List.append_nil] at ended
    exact s.on_adorned ended

theorem acrossLines_plain (cs : List Char) : plain.acrossLines cs = cs := by
  fun_induction acrossLines plain cs with
  | case1 => rfl
  | case2 rest ih => exact congrArg ('\r' :: '\n' :: ·) ih
  | case3 rest ih => exact congrArg ('\n' :: ·) ih
  | case4 c rest _ _ ih => exact congrArg (c :: ·) ih

@[simp] theorem paint_plain (cs : List Char) : plain.paint cs = cs := by
  have painted : plain.on ++ plain.acrossLines (plain.acrossEscapes cs) ++ plain.off =
      plain.acrossLines cs := List.append_nil _
  rw [paint, painted, acrossLines_plain]
  cases cs <;> rfl

end Style

end Marginalia
