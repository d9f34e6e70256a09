import Marginalia.Text.ClusterRole

/-!
# Flags

A flag is written as the two letters of its region, in letters that are kept for flags.  Not every
pair of letters has a flag.
-/

namespace Marginalia.Text

/-- First letters of regions, each with the letters that may stand behind it. -/
def regions : List (Char × String) :=
  [('A', "CDEFGILMOQRSTUWXZ"), ('B', "ABDEFGHIJLMNOQRSTVWYZ"), ('C', "ACDFGHIKLMNOPQRUVWXYZ"),
    ('D', "EGJKMOZ"), ('E', "ACEGHRSTU"), ('F', "IJKMOR"), ('G', "ABDEFGHILMNPQRSTUWY"),
    ('H', "KMNRTU"), ('I', "CDELMNOQRST"), ('J', "EMOP"), ('K', "EGHIMNPRWYZ"),
    ('L', "ABCIKRSTUVY"), ('M', "ACDEFGHKLMNOPQRSTUVWXYZ"), ('N', "ACEFGILOPRUZ"), ('O', "M"),
    ('P', "AEFGHKLMNRSTWY"), ('Q', "A"), ('R', "EOSUW"), ('S', "ABCDEGHIJKLMNORSTVXYZ"),
    ('T', "ACDFGHJKLMNORTVWZ"), ('U', "AGMNSYZ"), ('V', "ACEGINU"), ('W', "FS"), ('X', "K"),
    ('Y', "ET"), ('Z', "AMW")]

/-- The capital that half of a flag stands for. -/
def regionLetter (c : Char) : Char := Char.ofNat (c.toNat - 0x1F1E6 + 'A'.toNat)

/-- Whether two halves make a flag. -/
def isFlagPair (first second : Char) : Bool :=
  isRegional first && isRegional second &&
    match regions.lookup (regionLetter first) with
    | some seconds => seconds.toList.contains (regionLetter second)
    | none => false

/-- Whether there is a flag in a cluster. -/
def holdsFlag : List Char → Bool
  | first :: second :: rest => isFlagPair first second || holdsFlag (second :: rest)
  | _ => false

end Marginalia.Text
