import Marginalia.Proofs.Debug.History
import Marginalia.Proofs.Text.Splitting

/-!
# Whether any channel is on

Without a name the channels answer whether the setting that was read last named any.  A name that
is not blank has a channel, and a star is on in every channel, so mostly this is the same as that
some channel lets messages out.  It is not where a setting is a list of blanks: then it names
something, but a channel for a blank name is never on.
-/

namespace Marginalia

/-- Whether a setting is a list of blanks: it is not empty, and between its commas there is nothing
else. -/
def ListsBlanks (setting : Option String) : Prop :=
  setting.getD "" ≠ "" ∧
    ∀ element ∈ Text.split ',' (setting.getD "").toList, Text.trim element = []

instance (setting : Option String) : Decidable (ListsBlanks setting) :=
  inferInstanceAs (Decidable (_ ∧ _))

namespace Selection

theorem normal_eq_nil_iff {name : List Char} : normal name = [] ↔ Text.trim name = [] :=
  Text.lower_eq_nil_iff

theorem normal_ne_everything_of_blank {name : List Char} (blank : Text.trim name = []) :
    normal name ≠ everything := by
  rw [normal_eq_nil_iff.mpr blank]
  exact (List.cons_ne_nil _ _).symm

/-- A selection is empty for the settings that mean nothing, and for no list. -/
theorem isEmpty_parse_iff (setting : Option String) :
    (parse setting).isEmpty = true ↔ setting.getD "" ∈ ["", "0", "false"] := by
  rw [List.isEmpty_iff, parse]
  generalize setting.getD "" = value
  split
  · simp
  · simp
  · simp
  · simp
  · simp
  · simp
  · rename_i not_empty not_zero not_false _ _ _
    rw [List.map_eq_nil_iff]
    refine iff_of_false (Text.split_ne_nil _ _) ?_
    simp only [List.mem_cons, List.not_mem_nil, or_false, not_or]
    exact ⟨not_empty, not_zero, not_false⟩

end Selection

/-- A list of blanks is none of the settings that mean nothing. -/
theorem ListsBlanks.not_nothing {setting : Option String} (blanks : ListsBlanks setting) :
    setting.getD "" ∉ ["", "0", "false"] := by
  obtain ⟨not_empty, elements⟩ := blanks
  simp only [List.mem_cons, List.not_mem_nil, or_false, not_or]
  refine ⟨not_empty, fun zero => ?_, fun off => ?_⟩
  · rw [zero] at elements
    exact absurd elements (by decide +kernel)
  · rw [off] at elements
    exact absurd elements (by decide +kernel)

/-- A list of blanks switches on no name but a blank one. -/
theorem ListsBlanks.not_enables {setting : Option String} (blanks : ListsBlanks setting)
    {name : List Char} (named : Text.trim name ≠ []) : ¬ Enables setting name := by
  obtain ⟨-, elements⟩ := blanks
  rintro ⟨-, all | ⟨element, member, star | same⟩⟩
  · simp only [List.mem_cons, List.not_mem_nil, or_false] at all
    rcases all with eq | eq | eq <;>
      · rw [eq] at elements
        exact absurd elements (by decide +kernel)
  · exact Selection.normal_ne_everything_of_blank (elements element member) star
  · rw [Selection.normal_eq_nil_iff.mpr (elements element member)] at same
    exact named (Selection.normal_eq_nil_iff.mp same.symm)

/-- A setting that means something, and is no list of blanks, switches on a name that is not
blank. -/
theorem exists_enables {setting : Option String}
    (something : setting.getD "" ∉ ["", "0", "false"]) (not_blanks : ¬ ListsBlanks setting) :
    ∃ name, Text.trim name ≠ [] ∧ Enables setting name := by
  have not_empty : setting.getD "" ≠ "" := fun empty => something (by simp [empty])
  have not_all : ¬ ∀ element ∈ Text.split ',' (setting.getD "").toList, Text.trim element = [] :=
    fun all => not_blanks ⟨not_empty, all⟩
  obtain ⟨element, listed⟩ := Classical.not_forall.mp not_all
  obtain ⟨member, named⟩ := Classical.not_imp.mp listed
  exact ⟨element, named, something, .inr ⟨element, member, .inr rfl⟩⟩

theorem Part.trim_name_ne_nil (part : Part) : Text.trim part.name.toList ≠ [] := by
  cases part <;> decide +kernel

namespace Channels

/-- Whether a channel can be had: it is that of a part, or given out for some name. -/
def Offers (c : Channels) (channel : Channel) : Prop :=
  (∃ part, channel = c.ofPart part) ∨ ∃ name, channel = (c.get name).1

/-- Whether the channels let every message out that is sent to some channel that can be had. -/
def Speak (c : Channels) : Prop :=
  ∃ channel, c.Offers channel ∧ ∀ point data, (channel.send c.format point data).isSome = true

/-- Whether the channels let no message out, whichever channel it is sent to. -/
def Silent (c : Channels) : Prop :=
  ∀ channel, c.Offers channel → ∀ point data, channel.send c.format point data = none

theorem Silent.not_speak {c : Channels} (silent : c.Silent) : ¬ c.Speak := by
  rintro ⟨channel, offered, speaks⟩
  have sent := speaks "" none
  rw [silent channel offered] at sent
  cases sent

/-- A name that is not blank and is switched on has a channel that lets messages out. -/
theorem speak_of_enables {history : History} {name : List Char} (named : Text.trim name ≠ [])
    (enabled : Enables history.read name) : (after history).Speak := by
  refine ⟨_, .inr ⟨String.ofList name, rfl⟩, fun point data => ?_⟩
  have sent := send_get history [] (String.ofList name) point data
  rw [String.toList_ofList, if_pos ⟨named, enabled⟩] at sent
  exact Option.isSome_of_mem sent

/-- Where no name is switched on but blank ones, nothing comes out. -/
theorem silent_of_not_enables {history : History}
    (disabled : ∀ name, Text.trim name ≠ [] → ¬ Enables history.read name) :
    (after history).Silent := by
  rintro channel (⟨part, rfl⟩ | ⟨name, rfl⟩) point data
  · have sent := send_ofPart history [] part point data
    rwa [if_neg (disabled _ part.trim_name_ne_nil)] at sent
  · have sent := send_get history [] name point data
    rwa [if_neg fun both => disabled _ both.1 both.2] at sent

/-- After any history the channels answer that something is switched on if and only if some channel
lets messages out, or the setting as read at the last refresh is a list of blanks.  It is never
both: with a list of blanks, and where the answer is no, nothing comes out of any channel. -/
theorem isEnabled_iff_speak_or_blanks (history : History) :
    ((after history).isEnabled none = true ↔
      (after history).Speak ∨ ListsBlanks history.read) ∧
    ¬ ((after history).Speak ∧ ListsBlanks history.read) ∧
    ((after history).Speak ∨ (after history).Silent) := by
  have answer_iff : (after history).isEnabled none = true ↔
      history.read.getD "" ∉ ["", "0", "false"] := by
    have answer : (after history).isEnabled none = !(Selection.parse history.read).isEmpty := by
      rw [← (agrees_after history).selection]
      rfl
    rw [answer, Bool.not_eq_true', ← Bool.not_eq_true, Selection.isEmpty_parse_iff]
  have silent_of_no (no : ¬ (after history).isEnabled none = true) : (after history).Silent :=
    silent_of_not_enables fun name _ enabled => no (answer_iff.mpr enabled.1)
  have silent_of_blanks (blanks : ListsBlanks history.read) : (after history).Silent :=
    silent_of_not_enables fun name named => blanks.not_enables named
  have speak_of_yes (yes : (after history).isEnabled none = true)
      (not_blanks : ¬ ListsBlanks history.read) : (after history).Speak := by
    obtain ⟨name, named, enabled⟩ := exists_enables (answer_iff.mp yes) not_blanks
    exact speak_of_enables named enabled
  by_cases blanks : ListsBlanks history.read
  · have silent := silent_of_blanks blanks
    exact ⟨iff_of_true (answer_iff.mpr blanks.not_nothing) (.inr blanks),
      fun both => silent.not_speak both.1, .inr silent⟩
  · by_cases yes : (after history).isEnabled none = true
    · have speak := speak_of_yes yes blanks
      exact ⟨iff_of_true yes (.inl speak), fun both => blanks both.2, .inl speak⟩
    · have silent := silent_of_no yes
      exact ⟨iff_of_false yes (not_or_intro silent.not_speak blanks), fun both => blanks both.2,
        .inr silent⟩

/-- A comma alone names nothing that has a channel, and still something is switched on. -/
theorem not_isEnabled_iff_speak :
    ¬ ∀ setting : Option String,
        (after [.refresh, .set setting]).isEnabled none = true ↔
          (after [.refresh, .set setting]).Speak := by
  intro claim
  have blanks : ListsBlanks (some ",") := by decide +kernel
  have silent : (after [.refresh, .set (some ",")]).Silent :=
    silent_of_not_enables fun name named => blanks.not_enables named
  have enabled : (after [.refresh, .set (some ",")]).isEnabled none = true := by decide +kernel
  exact silent.not_speak ((claim (some ",")).mp enabled)

end Channels

end Marginalia
