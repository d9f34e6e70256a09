import Marginalia.Proofs.Number.Rounding
import Marginalia.Proofs.Report.Nesting

/-!
# Handlers from the environment

A variable that is set to decimal digits sets a count, and what the count cannot be made of is
ignored.  The digits are read as a number, though, and with enough of them the number is infinite:
it is positive and so it is not ignored, but it is no integer, and the handler is refused.
-/

namespace Marginalia

/-! ## Counts -/

namespace Options

theorem count_ofNat {option : String} {least n : Nat} (positive : 0 < n) (one : least = 1) :
    count option least (.ofNat n) =
      if Number.endless ≤ n then .error ⟨option, least, .infinity false⟩
      else .ok (Number.rounded n) := by
  subst one
  have rounded_pos : 1 ≤ Number.rounded n :=
    Nat.le_trans (Nat.two_pow_pos n.log2) (Number.rounded_bounds positive).1
  rw [Number.ofNat_eq positive]
  by_cases beyond : Number.overflow ≤ Number.rounded n
  · have endless := (Number.overflow_le_rounded_iff positive).mp beyond
    rw [if_pos beyond, if_pos endless]
    rfl
  · have within := mt (Number.overflow_le_rounded_iff positive).mpr beyond
    rw [if_neg beyond, if_neg within, count, Number.natural?_finite]
    exact if_pos rounded_pos

end Options

namespace Environment

/-! ## Variables -/

/-- The number that a variable is set to, in decimal digits with blanks around them. -/
def numeral? (e : Environment) (name : String) : Option Nat :=
  (e.value? name).bind fun value =>
    let digits := Text.trim value.toList
    if digits.isEmpty ∨ ¬ digits.all Char.isDigit then none
    else some (Nat.ofDigitChars 10 digits 0)

/-- Whether a variable is set to a number that is too large to be told from infinity. -/
def isEndless (e : Environment) (name : String) : Bool :=
  (e.numeral? name).any fun n => Number.endless ≤ n

/-- The count that a variable sets, or else a standard one.  Zero sets none. -/
def countOr (standard : Nat) (e : Environment) (name : String) : Nat :=
  match e.numeral? name with
  | some (n + 1) => Number.rounded (n + 1)
  | _ => standard

theorem bind_positive?_eq (e : Environment) (name : String) :
    (e.value? name).bind positive? =
      (e.numeral? name).bind fun n => if n = 0 then none else some (.ofNat n) := by
  unfold numeral?
  cases e.value? name with
  | none => rfl
  | some value =>
    simp only [Option.bind_some, positive?]
    split
    · rfl
    · cases Nat.ofDigitChars 10 (Text.trim value.toList) 0 <;> rfl

/-- A count from the environment is refused only for being endless; anything else that sets none
leaves the standard one. -/
theorem count_eq {option : String} {standard : Number} {usable : Nat}
    (standard_ok : Options.count option 1 standard = .ok usable) (e : Environment)
    (name : String) :
    Options.count option 1 (((e.value? name).bind positive?).getD standard) =
      if e.isEndless name then .error ⟨option, 1, .infinity false⟩
      else .ok (e.countOr usable name) := by
  rw [bind_positive?_eq, isEndless, countOr]
  cases e.numeral? name with
  | none => exact standard_ok
  | some n =>
    cases n with
    | zero =>
      have within : decide (Number.endless ≤ 0) = false := by decide +kernel
      rw [Option.any_some, within]
      exact standard_ok
    | succ n =>
      have counted := @Options.count_ofNat option 1 (n + 1) (Nat.succ_pos n) rfl
      simp only [Option.bind_some, Nat.add_eq_zero_iff, Nat.one_ne_zero, and_false, if_false,
        Option.getD_some, Option.any_some, decide_eq_true_eq]
      exact counted

/-! ## Options -/

/-- Options that take their counts from the environment. -/
theorem resolve_eq (e : Environment) {o : Options} (context_eq : o.context = none)
    (depth_eq : o.depthLimit = none) (width_eq : o.width = e.options.width)
    (tab_eq : o.tab = e.options.tab) :
    o.resolve =
      if e.isEndless "COLUMNS" then .error ⟨"width", 1, .infinity false⟩
      else if e.isEndless "SPANLIGHT_TAB_WIDTH" then .error ⟨"tabWidth", 1, .infinity false⟩
      else .ok {
        manner := {
          before := 1, after := 1, tab := e.countOr 4 "SPANLIGHT_TAB_WIDTH"
          theme := o.theme.getD .unicode
          highlighter := o.highlighter.getD .plain }
        width := e.countOr 80 "COLUMNS"
        links := o.links.getD true
        footer := o.footer
        depthLimit := 16 } := by
  have before_ok : Options.count "contextLines.before" 0 o.contextLines.1 = .ok 1 := by
    rw [Options.contextLines, context_eq]
    decide +kernel
  have after_ok : Options.count "contextLines.after" 0 o.contextLines.2 = .ok 1 := by
    rw [Options.contextLines, context_eq]
    decide +kernel
  have depth_ok : Options.count "maxRelatedDepth" 0 (o.depthLimit.getD Options.standardDepth) =
      .ok 16 := by
    rw [depth_eq]
    decide +kernel
  have width_ok : Options.count "width" 1 Options.standardWidth = .ok 80 := by decide +kernel
  have tab_ok : Options.count "tabWidth" 1 (.ofNat Text.defaultTab) = .ok 4 := by decide +kernel
  have width_counted := e.count_eq width_ok "COLUMNS"
  have tab_counted := e.count_eq tab_ok "SPANLIGHT_TAB_WIDTH"
  rw [Options.resolve, before_ok, after_ok, width_eq, tab_eq, depth_ok]
  simp only [options, width_counted, tab_counted]
  cases e.isEndless "COLUMNS" <;> cases e.isEndless "SPANLIGHT_TAB_WIDTH" <;> rfl

end Environment

/-! ## Handlers -/

namespace Handler

open Environment (isEndless countOr)

theorem map_settings_ofNarrated (o : Options) : (ofNarrated o).map settings = o.resolve := by
  unfold ofNarrated
  cases o.resolve <;> rfl

theorem map_settings_ofGraphical (o : Options) : (ofGraphical o).map settings = o.resolve := by
  unfold ofGraphical GraphicalHandler.ofOptions
  split
  · rename_i settings resolved
    exact resolved.symm
  · rename_i e refused
    exact refused.symm

/-- The settings of a handler from the environment alone, but for its theme. -/
theorem exists_theme (e : Environment) (isTerminal : Bool) :
    ∃ theme : Theme, (ofEnvironment {} e isTerminal).map settings =
      if e.isEndless "COLUMNS" then .error ⟨"width", 1, .infinity false⟩
      else if e.isEndless "SPANLIGHT_TAB_WIDTH" then .error ⟨"tabWidth", 1, .infinity false⟩
      else .ok {
        manner := ⟨1, 1, e.countOr 4 "SPANLIGHT_TAB_WIDTH", theme, .plain⟩
        width := e.countOr 80 "COLUMNS"
        links := true
        footer := none
        depthLimit := 16 } := by
  have kept (number : Option Number) : (number <|> none) = number := by cases number <;> rfl
  unfold ofEnvironment
  cases Mode.detect e isTerminal with
  | narrated => exact ⟨.unicode, (map_settings_ofNarrated _).trans (e.resolve_eq rfl rfl rfl rfl)⟩
  | plain =>
    exact ⟨.unicodePlain, (map_settings_ofGraphical _).trans
      (e.resolve_eq rfl rfl (kept _) (kept _))⟩
  | graphical =>
    exact ⟨.unicode, (map_settings_ofGraphical _).trans (e.resolve_eq rfl rfl (kept _) (kept _))⟩

/-- The environment alone makes a handler unless one of its two counts is endless, which is then
refused; the other values of both variables are counts, or are ignored. -/
theorem ofEnvironment_refuses_endless (e : Environment) (isTerminal : Bool) :
    (∀ refusal, ofEnvironment {} e isTerminal = .error refusal ↔
      e.isEndless "COLUMNS" = true ∧ refusal = ⟨"width", 1, .infinity false⟩ ∨
        e.isEndless "COLUMNS" = false ∧ e.isEndless "SPANLIGHT_TAB_WIDTH" = true ∧
          refusal = ⟨"tabWidth", 1, .infinity false⟩) ∧
    (e.isEndless "COLUMNS" = false → e.isEndless "SPANLIGHT_TAB_WIDTH" = false →
      ∃ h, ofEnvironment {} e isTerminal = .ok h ∧ h.settings.width = e.countOr 80 "COLUMNS" ∧
        h.settings.manner.tab = e.countOr 4 "SPANLIGHT_TAB_WIDTH") := by
  obtain ⟨theme, settings_eq⟩ := exists_theme e isTerminal
  cases made : ofEnvironment {} e isTerminal with
  | error refusal =>
    rw [made] at settings_eq
    cases columns : e.isEndless "COLUMNS" <;> cases tab : e.isEndless "SPANLIGHT_TAB_WIDTH" <;>
      simp [columns, tab, Except.map] at settings_eq <;> simp [settings_eq, eq_comm]
  | ok h =>
    rw [made] at settings_eq
    cases columns : e.isEndless "COLUMNS" <;> cases tab : e.isEndless "SPANLIGHT_TAB_WIDTH" <;>
      simp [columns, tab, Except.map] at settings_eq
    simp [settings_eq]

/-- An environment in which the columns are no number and the tab stops stand between blanks. -/
def wideColumns : Environment where
  value? name :=
    if name = "COLUMNS" then some "wide"
    else if name = "SPANLIGHT_TAB_WIDTH" then some " 8\n"
    else none

/-- What is no number is ignored and blanks around a number do no harm. -/
theorem ofEnvironment_refuses_endless_only :
    wideColumns.isEndless "COLUMNS" = false ∧
      wideColumns.isEndless "SPANLIGHT_TAB_WIDTH" = false ∧
      ∃ h, ofEnvironment {} wideColumns true = .ok h ∧ h.settings.width = 80 ∧
        h.settings.manner.tab = 8 := by
  have columns : wideColumns.isEndless "COLUMNS" = false := by decide +kernel
  have tab : wideColumns.isEndless "SPANLIGHT_TAB_WIDTH" = false := by decide +kernel
  have standard : wideColumns.countOr 80 "COLUMNS" = 80 := by decide +kernel
  have set : wideColumns.countOr 4 "SPANLIGHT_TAB_WIDTH" = 8 := by decide +kernel
  obtain ⟨h, made, width_eq, tab_eq⟩ :=
    (ofEnvironment_refuses_endless wideColumns true).2 columns tab
  exact ⟨columns, tab, h, made, width_eq.trans standard, tab_eq.trans set⟩

/-- An environment with a number of columns that is written in nines. -/
def columnsInNines (digits : Nat) : Environment where
  value? name := if name = "COLUMNS" then some (String.ofList (List.replicate digits '9')) else none

theorem numeral?_columnsInNines {digits : Nat} (some_digit : digits ≠ 0) :
    (columnsInNines digits).numeral? "COLUMNS" =
      some (Nat.ofDigitChars 10 (List.replicate digits '9') 0) := by
  have not_blank : Text.isBlank '9' = false := by decide +kernel
  have digit : Char.isDigit '9' = true := by decide
  have trimmed : Text.trim (List.replicate digits '9') = List.replicate digits '9' := by
    simp [Text.trim, Text.trimEnd, Text.trimStart, not_blank]
  rw [Environment.numeral?, columnsInNines]
  simp [trimmed, digit, some_digit]

/-- Not every environment makes a handler: 309 nines are too many. -/
theorem not_all_environments_usable :
    ¬ ∀ (e : Environment) (isTerminal : Bool), ∃ h, ofEnvironment {} e isTerminal = .ok h := by
  intro usable
  obtain ⟨h, made⟩ := usable (columnsInNines 309) false
  have many : Number.endless ≤ Nat.ofDigitChars 10 (List.replicate 309 '9') 0 := by
    decide +kernel
  have endless : (columnsInNines 309).isEndless "COLUMNS" = true := by
    rw [Environment.isEndless, numeral?_columnsInNines (by decide), Option.any_some,
      decide_eq_true_iff]
    exact many
  obtain ⟨theme, settings_eq⟩ := exists_theme (columnsInNines 309) false
  rw [made, endless] at settings_eq
  cases settings_eq

end Handler

end Marginalia
