import Marginalia.Debug.Channel
import Marginalia.Proofs.Text.Case

/-!
# Channels and their history

Three things hold channels: the parts of the library, the table of the other names, and whoever
was given a channel and kept it.  A program sets the variable, refreshes, configures and asks for
channels in any order.  Which messages come out is told here by what was done alone: by the
setting as it stood at the last refresh before the channel was given out, and by the format that
was configured last before the message.
-/

namespace Marginalia

/-- What a program does to the channels. -/
inductive Action where
  /-- The variable gets another value or is taken away. -/
  | set (setting : Option String)
  | refresh
  /-- Options are given, with a format among them or without. -/
  | configure (format : Option Format)
  /-- A channel is asked for by name. -/
  | get (name : String)
deriving DecidableEq

/-- What was done, the latest first. -/
abbrev History := List Action

namespace History

/-- The value of the variable. -/
def setting : History → Option String
  | [] => none
  | .set value :: _ => value
  | .refresh :: earlier | .configure _ :: earlier | .get _ :: earlier => setting earlier

/-- The value of the variable as it was read at the last refresh. -/
def read : History → Option String
  | [] => none
  | .refresh :: earlier => setting earlier
  | .set _ :: earlier | .configure _ :: earlier | .get _ :: earlier => read earlier

/-- The format that was configured last. -/
def format : History → Format
  | [] => .pretty
  | .configure (some format) :: _ => format
  | .configure none :: earlier | .set _ :: earlier | .refresh :: earlier | .get _ :: earlier =>
    format earlier

theorem read_append {quiet history : History} (unread : .refresh ∉ quiet) :
    read (quiet ++ history) = read history := by
  induction quiet with
  | nil => rfl
  | cons action earlier ih =>
    rw [List.mem_cons, not_or] at unread
    obtain ⟨not_refresh, unread⟩ := unread
    have rest := ih unread
    cases action with
    | refresh => exact absurd rfl not_refresh
    | set value => exact rest
    | configure format => exact rest
    | get name => exact rest

end History

/-- Whether a setting switches on a name, whatever blanks stand around it and in capitals or not:
the setting is none of those that mean nothing, and it is one of those that mean all, or between
its commas stands a star or the name. -/
def Enables (setting : Option String) (name : List Char) : Prop :=
  setting.getD "" ∉ ["", "0", "false"] ∧
    (setting.getD "" ∈ ["*", "1", "true"] ∨
      ∃ element ∈ Text.split ',' (setting.getD "").toList,
        Selection.normal element = Selection.everything ∨
          Selection.normal element = Selection.normal name)

instance (setting : Option String) (name : List Char) : Decidable (Enables setting name) :=
  inferInstanceAs (Decidable (_ ∧ _))

namespace Selection

/-- A name that is asked for as the key it is kept under. -/
theorem isOn_normal (s : Selection) (name : List Char) :
    s.isOn (normal name) = true ↔ everything ∈ s ∨ normal name ∈ s := by
  rw [isOn, normal, Text.lower_lower, Bool.or_eq_true, List.contains_iff_mem,
    List.contains_iff_mem]

/-- A selection is what the setting says. -/
theorem isOn_parse_iff (setting : Option String) (name : List Char) :
    (parse setting).isOn (normal name) = true ↔ Enables setting name := by
  rw [isOn_normal, parse, Enables]
  generalize setting.getD "" = value
  split
  · simp
  · simp
  · simp
  · simp
  · simp
  · simp
  · rename_i not_empty not_zero not_false not_star not_one not_true
    have not_nothing : value ∉ ["", "0", "false"] := by
      simp only [List.mem_cons, List.not_mem_nil, or_false, not_or]
      exact ⟨not_empty, not_zero, not_false⟩
    have not_all : value ∉ ["*", "1", "true"] := by
      simp only [List.mem_cons, List.not_mem_nil, or_false, not_or]
      exact ⟨not_star, not_one, not_true⟩
    constructor
    · rintro (star | named)
      · obtain ⟨element, member, eq⟩ := List.mem_map.mp star
        exact ⟨not_nothing, .inr ⟨element, member, .inl eq⟩⟩
      · obtain ⟨element, member, eq⟩ := List.mem_map.mp named
        exact ⟨not_nothing, .inr ⟨element, member, .inr eq⟩⟩
    · rintro ⟨-, all | ⟨element, member, star | named⟩⟩
      · exact absurd all not_all
      · exact .inl (List.mem_map.mpr ⟨element, member, star⟩)
      · exact .inr (List.mem_map.mpr ⟨element, member, named⟩)

end Selection

/-- The names of the parts are kept as they are. -/
theorem Part.normal_name (part : Part) :
    Selection.normal part.name.toList = part.name.toList := by
  cases part <;> decide +kernel

namespace Channel

/-- A message comes out of a channel that a setting switched on when the channel was made. -/
theorem send_create (setting : Option String) (name : List Char) (format : Format)
    (point : String) (data : Option (List (String × Value))) :
    (create (.parse setting) (Selection.normal name)).send format point data =
      if Enables setting name then
        some ((Message.mk (String.ofList (Selection.normal name)) point data).write format)
      else none := by
  simp only [create, send, Selection.isOn_parse_iff]

end Channel

namespace Channels

/-- The channels after one more thing is done. -/
def act (c : Channels) : Action → Channels
  | .set value => c.set value
  | .refresh => c.refresh
  | .configure (some format) => c.configure format
  | .configure none => c
  | .get name => (c.get name).2

/-- The channels after all that was done. -/
def after : History → Channels
  | [] => start
  | action :: earlier => (after earlier).act action

/-- Channels as a history made them: each is made from the setting as it was read last. -/
structure Agrees (c : Channels) (history : History) : Prop where
  setting : c.setting = history.setting
  selection : c.selection = .parse history.read
  ofPart : c.ofPart = parts (.parse history.read)
  others : ∀ entry ∈ c.others, entry.2 = .create (.parse history.read) entry.1
  format : c.format = history.format

theorem Agrees.start : Agrees start [] where
  setting := rfl
  selection := rfl
  ofPart := rfl
  others := by
    intro entry member
    cases member
  format := rfl

theorem Agrees.refresh {c : Channels} {history : History} (agrees : c.Agrees history) :
    c.refresh.Agrees (.refresh :: history) where
  setting := agrees.setting
  selection := congrArg Selection.parse agrees.setting
  ofPart := by
    rw [Channels.refresh, agrees.setting]
    rfl
  others := by
    intro entry member
    obtain ⟨old, -, rfl⟩ := List.mem_map.mp member
    rw [agrees.setting]
    rfl
  format := agrees.format

/-- What is given out for a name: nothing for a blank one, and else a channel as it would be made
now, whether it is made now or was made before. -/
theorem Agrees.get_eq {c : Channels} {history : History} (agrees : c.Agrees history)
    (name : String) :
    (c.get name).1 =
      if Selection.normal name.toList = [] then .silent
      else .create (.parse history.read) (Selection.normal name.toList) := by
  rw [Channels.get]
  split
  · rename_i blank
    rw [List.isEmpty_iff] at blank
    rw [if_pos blank]
  · rename_i not_blank
    rw [List.isEmpty_iff] at not_blank
    rw [if_neg not_blank]
    split
    · rename_i channel found
      obtain ⟨front, behind, split_at, -⟩ := List.lookup_eq_some_iff.mp found
      apply agrees.others (Selection.normal name.toList, channel)
      simp [split_at]
    · rw [agrees.selection]

theorem Agrees.get {c : Channels} {history : History} (agrees : c.Agrees history)
    (name : String) : (c.get name).2.Agrees (.get name :: history) := by
  rw [Channels.get]
  split
  · exact ⟨agrees.setting, agrees.selection, agrees.ofPart, agrees.others, agrees.format⟩
  · split
    · exact ⟨agrees.setting, agrees.selection, agrees.ofPart, agrees.others, agrees.format⟩
    · refine ⟨agrees.setting, agrees.selection, agrees.ofPart, ?_, agrees.format⟩
      intro entry member
      obtain old | new := List.mem_append.mp member
      · exact agrees.others entry old
      · rw [List.mem_singleton.mp new, agrees.selection]
        rfl

/-- One more thing that is done keeps the channels in agreement with what was done. -/
theorem Agrees.act {c : Channels} {history : History} (agrees : c.Agrees history)
    (action : Action) : (c.act action).Agrees (action :: history) := by
  cases action with
  | set value => exact ⟨rfl, agrees.selection, agrees.ofPart, agrees.others, agrees.format⟩
  | refresh => exact agrees.refresh
  | configure format =>
    cases format with
    | none =>
      exact ⟨agrees.setting, agrees.selection, agrees.ofPart, agrees.others, agrees.format⟩
    | some format =>
      exact ⟨agrees.setting, agrees.selection, agrees.ofPart, agrees.others, rfl⟩
  | get name => exact agrees.get name

/-- Channels agree with all that was done. -/
theorem agrees_after (history : History) : (after history).Agrees history := by
  induction history with
  | nil => exact .start
  | cons action earlier ih => exact ih.act action

/-- A message to a part comes out if the setting that was read last, when the part got its
channel, switches the part on; its format is that of the moment of the message. -/
theorem send_ofPart (history later : History) (part : Part) (point : String)
    (data : Option (List (String × Value))) :
    ((after history).ofPart part).send (after (later ++ history)).format point data =
      if Enables history.read part.name.toList then
        some ((Message.mk part.name point data).write (History.format (later ++ history)))
      else none := by
  rw [(agrees_after history).ofPart, (agrees_after _).format, parts, ← part.normal_name,
    Channel.send_create, part.normal_name, String.ofList_toList]

/-- A message to a channel that was given out for a name comes out if the name is not blank and
the setting that was read last, when the channel was given out, switches it on. -/
theorem send_get (history later : History) (name : String) (point : String)
    (data : Option (List (String × Value))) :
    ((after history).get name).1.send (after (later ++ history)).format point data =
      if Text.trim name.toList ≠ [] ∧ Enables history.read name.toList then
        some ((Message.mk (String.ofList (Selection.normal name.toList)) point data).write
          (History.format (later ++ history)))
      else none := by
  have blank_iff : Selection.normal name.toList = [] ↔ Text.trim name.toList = [] :=
    Text.lower_eq_nil_iff
  rw [(agrees_after history).get_eq, (agrees_after _).format]
  by_cases blank : Text.trim name.toList = []
  · rw [if_pos (blank_iff.mpr blank), if_neg (fun both => both.1 blank)]
    rfl
  · rw [if_neg (mt blank_iff.mp blank), Channel.send_create]
    simp only [ne_eq, blank, not_false_eq_true, true_and]

/-- As long as nothing is refreshed, the channels of the parts and the channels that are given out
stay the same. -/
theorem unread_changes_nothing {history quiet : History} (unread : .refresh ∉ quiet) :
    (after (quiet ++ history)).ofPart = (after history).ofPart ∧
      ∀ name, ((after (quiet ++ history)).get name).1 = ((after history).get name).1 := by
  have same : History.read (quiet ++ history) = history.read := History.read_append unread
  constructor
  · rw [(agrees_after _).ofPart, (agrees_after _).ofPart, same]
  · intro name
    rw [(agrees_after _).get_eq, (agrees_after _).get_eq, same]

/-- After any history a channel of a part, and one that is given out for a name that is not blank,
lets a message out if and only if the setting as read at the last refresh switches on its name,
and writes it in the format that was configured last.  What is set without a refresh changes none
of these channels, and a channel that is kept through all that is done later still goes by the
setting it was made from. -/
theorem messages_follow_last_refresh (history later quiet : History) (unread : .refresh ∉ quiet)
    (point : String) (data : Option (List (String × Value))) :
    (∀ part : Part,
      ((after history).ofPart part).send (after (later ++ history)).format point data =
        if Enables history.read part.name.toList then
          some ((Message.mk part.name point data).write (History.format (later ++ history)))
        else none) ∧
    (∀ name : String,
      ((after history).get name).1.send (after (later ++ history)).format point data =
        if Text.trim name.toList ≠ [] ∧ Enables history.read name.toList then
          some ((Message.mk (String.ofList (Selection.normal name.toList)) point data).write
            (History.format (later ++ history)))
        else none) ∧
    (after (quiet ++ history)).ofPart = (after history).ofPart ∧
    ∀ name, ((after (quiet ++ history)).get name).1 = ((after history).get name).1 := by
  refine ⟨?_, ?_, unread_changes_nothing unread⟩
  · intro part
    exact send_ofPart history later part point data
  · intro name
    exact send_get history later name point data

/-- Channels of a list of two names: one that is kept goes on when the variable is gone, and a part
that is not in the list is off. -/
theorem messages_follow_last_refresh_of_list :
    let listed : History := [.refresh, .set (some "merge, Render")]
    let gone : History := [.refresh, .set none, .configure (some .pretty)]
    .refresh ∉ [Action.set none] ∧
      ((after listed).get " RENDER ").1.send (after (gone ++ listed)).format "window" none =
        some "[render.window]" ∧
      ((after listed).ofPart .report).send (after (gone ++ listed)).format "window" none = none ∧
      ((after ([.set none] ++ listed)).get "render").1 = ((after listed).get "render").1 := by
  intro listed gone
  have quiet : .refresh ∉ [Action.set none] := by decide
  obtain ⟨parts, given, -, same⟩ :=
    messages_follow_last_refresh listed gone [.set none] quiet "window" none
  have on : Text.trim " RENDER ".toList ≠ [] ∧ Enables listed.read " RENDER ".toList := by
    decide +kernel
  have off : ¬ Enables listed.read (Part.name .report).toList := by
    decide +kernel
  refine ⟨quiet, ?_, ?_, same "render"⟩
  · rw [given, if_pos on]
    decide +kernel
  · rw [parts, if_neg off]

end Channels

end Marginalia
