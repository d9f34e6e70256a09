import Marginalia.Text.Emoji
import Marginalia.Text.Escape
import Marginalia.Text.Flag
import Marginalia.Text.Wide

/-!
# Clusters

The clusters of a text are what wrapped text is measured by, and the measure is coarser than that
of columns: a cluster with a picture in it takes two columns however it is made up, and any other
one takes the columns of its first character.
-/

namespace Marginalia.Text

/-- What is known of the end of a cluster, for consonants. -/
inductive Conjunct where
  | none
  /-- It ends with a consonant and what belongs to it. -/
  | open
  /-- It ends with a consonant that is linked to the next one. -/
  | linked
deriving DecidableEq

/-- What is known of the cluster at hand. -/
structure ClusterState where
  /-- The role of its last character. -/
  last : ClusterRole
  /-- Whether it ends with an odd number of halves of flags. -/
  halfFlag : Bool
  /-- Whether it ends with a picture and what belongs to it. -/
  picture : Bool
  /-- Whether it ends with a picture, what belongs to it and a joiner. -/
  joined : Bool
  conjunct : Conjunct

namespace Conjunct

/-- After one more character. -/
def push (c : Conjunct) : ClusterRole → Conjunct
  | .consonant => .open
  | .linking => if c = .none then .none else .linked
  | .extending | .joiner => c
  | _ => .none

end Conjunct

namespace ClusterState

/-- Before the first character. -/
def start : ClusterState := ⟨.control, false, false, false, .none⟩

/-- Whether a picture goes on with a character of the role. -/
def keepsPicture : ClusterRole → Bool
  | .extending | .linking | .parting => true
  | _ => false

/-- After one more character. -/
def push (s : ClusterState) (role : ClusterRole) : ClusterState where
  last := role
  halfFlag := role = .regional && !(s.last = .regional && s.halfFlag)
  picture := role = .picture || (keepsPicture role && s.picture)
  joined := role = .joiner && s.picture
  conjunct := s.conjunct.push role

/-- Whether a character of the role belongs to the cluster at hand. -/
def continues (s : ClusterState) (role : ClusterRole) : Bool :=
  match s.last, role with
  | .carriageReturn, .lineFeed => true
  | .carriageReturn, _ | .lineFeed, _ | .control, _ => false
  | _, .carriageReturn | _, .lineFeed | _, .control => false
  | _, .extending | _, .linking | _, .parting | _, .spacing | _, .joiner => true
  | .preceding, _ => true
  | .leading, .leading | .leading, .vowel => true
  | .leading, .openSyllable | .leading, .closedSyllable => true
  | .openSyllable, .vowel | .openSyllable, .trailing => true
  | .vowel, .vowel | .vowel, .trailing => true
  | .closedSyllable, .trailing | .trailing, .trailing => true
  | .regional, .regional => s.halfFlag
  | _, .consonant => s.conjunct = .linked
  | _, .picture => s.joined
  | _, _ => false

end ClusterState

/-- What continues the cluster at hand, and the clusters behind it. -/
def clustersFrom (s : ClusterState) : List Char → List Char × List (List Char)
  | [] => ([], [])
  | c :: rest =>
    let role := clusterRole c
    let (more, others) := clustersFrom (s.push role) rest
    if s.continues role then (c :: more, others) else ([], (c :: more) :: others)

/-- The clusters of a text. -/
def clusters (cs : List Char) : List (List Char) := (clustersFrom .start cs).2

/-- Inclusive ranges of code points that make a cluster invisible when they begin it, ascending. -/
def hiddenStartRanges : List (Nat × Nat) :=
  [(0x0, 0x1F), (0x7F, 0x9F), (0x300, 0x36F), (0x1AB0, 0x1AFF), (0x1DC0, 0x1DFF),
    (0x200B, 0x200F), (0x20D0, 0x20FF), (0xFE00, 0xFE0F), (0xFE20, 0xFE2F), (0xFEFF, 0xFEFF)]

/-- Inclusive ranges of code points that are invisible when they are a cluster alone, ascending. -/
def ignorableRanges : List (Nat × Nat) :=
  [(0xAD, 0xAD), (0x34F, 0x34F), (0x61C, 0x61C), (0x115F, 0x1160), (0x17B4, 0x17B5),
    (0x180B, 0x180F), (0x200B, 0x200F), (0x202A, 0x202E), (0x2060, 0x206F), (0x3164, 0x3164),
    (0xFE00, 0xFE0F), (0xFEFF, 0xFEFF), (0xFFA0, 0xFFA0), (0xFFF0, 0xFFF8), (0x1BCA0, 0x1BCA3),
    (0x1D173, 0x1D17A), (0xE0000, 0xE0FFF)]

/-- Whether a text begins with a key: a digit, a star or a number sign in a box. -/
def beginsKeycap : List Char → Bool
  | base :: rest =>
    (base.isDigit || base = '#' || base = '*') &&
      match rest with
      | '\u20E3' :: _ | '\uFE0F' :: '\u20E3' :: _ => true
      | _ => false
  | [] => false

/-- Whether there is a key in a cluster. -/
def holdsKeycap : List Char → Bool
  | [] => false
  | c :: rest => beginsKeycap (c :: rest) || holdsKeycap rest

/-- Whether there is something in a cluster that is drawn as a picture. -/
def holdsPicture (cluster : List Char) : Bool :=
  cluster.any isEmoji || holdsKeycap cluster || holdsFlag cluster

/-- Columns of a cluster. -/
def clusterWidth (cluster : List Char) : Nat :=
  match cluster with
  | [] => 0
  | c :: rest =>
    if covers hiddenStartRanges c.toNat then 0
    else if rest.isEmpty && covers ignorableRanges c.toNat then 0
    else if holdsPicture cluster || isWide c then 2
    else 1

/-- Columns of clusters. -/
def clustersWidth : List (List Char) → Nat
  | [] => 0
  | cluster :: rest => clusterWidth cluster + clustersWidth rest

/-- Columns of a text that is measured by clusters, its escapes left out. -/
def clusteredWidth (cs : List Char) : Nat := clustersWidth (clusters (remove anyEscape cs))

end Marginalia.Text
