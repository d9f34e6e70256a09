import Marginalia.Debug.Message
import Marginalia.Text.Blank
import Marginalia.Text.Case
import Marginalia.Text.Split

/-!
# Debug channels

A setting names the channels that are switched on.  It is read when the channels are refreshed,
and a channel is on or off from the moment it is made: every refresh makes the channels anew, but
whoever holds one from before keeps it as it was.  The format of messages is that of the moment
they are sent.
-/

namespace Marginalia

/-- The names that are switched on; a star stands for all. -/
abbrev Selection := List (List Char)

namespace Selection

/-- Stands for all channels. -/
def everything : List Char := ['*']

/-- A name without blanks around it and in small letters. -/
def normal (name : List Char) : List Char := Text.lower (Text.trim name)

/-- The names in a setting: none, all, or those between commas. -/
def parse (setting : Option String) : Selection :=
  match setting.getD "" with
  | "" | "0" | "false" => []
  | "*" | "1" | "true" => [everything]
  | names => (Text.split ',' names.toList).map normal

/-- Whether a name is switched on. -/
def isOn (s : Selection) (name : List Char) : Bool :=
  s.contains everything || s.contains (Text.lower name)

end Selection

/-- A channel: sends messages under a name, or none. -/
structure Channel where
  name : List Char
  isOn : Bool
deriving DecidableEq

namespace Channel

/-- A channel that is on if its name is switched on. -/
def create (s : Selection) (name : List Char) : Channel := ⟨name, s.isOn name⟩

/-- The channel without a name, which is never on. -/
def silent : Channel := ⟨[], false⟩

/-- The text that a channel sends, if it is on. -/
def send (c : Channel) (format : Format) (point : String) (data : Option (List (String × Value))) :
    Option String :=
  if c.isOn then some ((Message.mk (String.ofList c.name) point data).write format) else none

end Channel

/-- The parts of the library that have channels of their own. -/
inductive Part where
  | resolve
  | merge
  | render
  | report
deriving DecidableEq

namespace Part

/-- All parts. -/
def all : List Part := [resolve, merge, render, report]

/-- The name of the channel of a part. -/
def name : Part → String
  | resolve => "resolve"
  | merge => "merge"
  | render => "render"
  | report => "report"

/-- The part with a name. -/
def ofName? (s : String) : Option Part := all.find? (·.name = s)

end Part

/-- All channels, and what they depend on. -/
structure Channels where
  /-- The setting as it is now. -/
  setting : Option String
  /-- The names that were switched on at the last refresh. -/
  selection : Selection
  /-- The channel of each part. -/
  ofPart : Part → Channel
  /-- Other channels by name. -/
  others : List (List Char × Channel)
  format : Format

namespace Channels

/-- The channels of the parts for a selection. -/
def parts (s : Selection) (part : Part) : Channel := .create s part.name.toList

/-- Nothing set and no other channels. -/
def start : Channels := ⟨none, [], parts [], [], .pretty⟩

/-- A changed setting, which means nothing yet. -/
def set (c : Channels) (setting : Option String) : Channels := { c with setting }

/-- All channels made anew from the setting. -/
def refresh (c : Channels) : Channels :=
  let selection := Selection.parse c.setting
  { c with
    selection
    ofPart := parts selection
    others := c.others.map fun (name, _) => (name, .create selection name) }

/-- Messages in another format. -/
def configure (c : Channels) (format : Format) : Channels := { c with format }

/-- The channel with a name, made if it is asked for the first time. -/
def get (c : Channels) (name : String) : Channel × Channels :=
  let key := Selection.normal name.toList
  if key.isEmpty then (.silent, c)
  else
    match c.others.lookup key with
    | some channel => (channel, c)
    | none =>
      let channel := Channel.create c.selection key
      (channel, { c with others := c.others ++ [(key, channel)] })

/-- Whether a name is switched on, or without a name, whether the setting named any. -/
def isEnabled (c : Channels) (name : Option String) : Bool :=
  match name.getD "" with
  | "" => !c.selection.isEmpty
  | name => c.selection.isOn name.toList

end Channels

end Marginalia
