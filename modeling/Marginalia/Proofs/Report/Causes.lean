import Marginalia.Proofs.Diagnostic.Chain
import Marginalia.Proofs.Report.Nesting
import Marginalia.Proofs.Text.Wrapping

/-!
# Causes in a report

A chain is cut off where it is made of something thrown, and once more where it is told.  Both limits
are the same, so that the first links of the unrolled chain are told whichever cuts first.  A report
tells each of them in lines of its own, and no other causes.
-/

namespace Marginalia

variable {κ : Type}

/-! ## Links in lines -/

namespace Graphical

/-- How the message of a cause is wrapped. -/
def causeWrapping (s : Settings) (style : Style) (isLast : Bool) : Text.Wrapping where
  width := s.width
  first :=
    let g := s.manner.theme.glyphs
    mark style [if isLast then g.bottomCorner else g.branch, g.horizontal, g.rightArrow] 1
  others :=
    if isLast then List.replicate 6 ' ' else mark style [s.manner.theme.glyphs.vertical] 3

theorem causes_eq_mapIdx (s : Settings) (style : Style) (links : List Link) :
    causes s style links = (links.mapIdx fun i link =>
      (causeWrapping s style (i + 1 = links.length)).lines link.message.toList).flatten := by
  induction links with
  | nil => rfl
  | cons link rest ih =>
    have is_last : decide (0 + 1 = (link :: rest).length) = rest.isEmpty := by
      cases rest <;> simp
    rw [List.mapIdx_cons, List.flatten_cons, is_last]
    simp only [List.length_cons, Nat.add_right_cancel_iff, ← ih]
    rfl

end Graphical

namespace Handler

/-- The lines that tell a cause of a diagnostic. -/
def cause (h : Handler) (f : Statement κ) (isLast : Bool) (link : Link) : List (List Char) :=
  match h with
  | graphical handler =>
    (Graphical.causeWrapping handler.settings (Graphical.tone handler.settings f) isLast).lines
      link.message.toList
  | narrated _ => [("    Caused by: " ++ link.message).toList]

/-- The lines that tell the causes of a diagnostic, cause by cause. -/
def causes (h : Handler) (f : Statement κ) (links : List Link) : List (List (List Char)) :=
  (Link.told links).mapIdx fun i link => h.cause f (i + 1 = (Link.told links).length) link

theorem cause_ne_nil (h : Handler) (f : Statement κ) (isLast : Bool) (link : Link) :
    h.cause f isLast link ≠ [] := by
  cases h with
  | graphical handler => exact Text.Wrapping.lines_ne_nil _ _
  | narrated settings => exact List.cons_ne_nil _ _

theorem length_told (links : List Link) : (Link.told links).length = min links.length 32 := by
  rw [Link.told, List.length_take, Nat.min_comm]
  rfl

theorem getElem?_causes (h : Handler) (f : Statement κ) (links : List Link) (i : Nat) :
    (h.causes f links)[i]? = if i < 32 then
      links[i]?.map (h.cause f (i + 1 = min links.length 32)) else none := by
  rw [causes, List.getElem?_mapIdx, length_told, Link.told, List.getElem?_take]
  change Option.map _ (if i < 32 then _ else _) = _
  split <;> rfl

theorem causes_narrated (settings : Settings) (f : Statement κ) (links : List Link) :
    ((narrated settings).causes f links).flatten =
      (Link.told links).map fun link => ("    Caused by: " ++ link.message).toList := by
  have one_each : (narrated settings).causes f links =
      (Link.told links).map fun link => [("    Caused by: " ++ link.message).toList] := by
    refine List.ext_getElem? fun i => ?_
    rw [causes, List.getElem?_mapIdx, List.getElem?_map]
    rfl
  rw [one_each, ← List.flatMap_def, ← List.map_eq_flatMap]

/-- The chain of a diagnostic is told between lines that do not depend on it. -/
theorem exists_entry_causes [Coordinate κ] (h : Handler) (depth : Nat) (f : Statement κ)
    (source : Option Source) :
    ∃ front back, ∀ links : List Link,
      h.entry (.told depth { f with cause := links } source) =
        (h.snippet (.told depth f source)).map
          (front ++ (h.causes f links).flatten ++ · ++ back) := by
  cases h with
  | graphical handler =>
    let s := handler.settings
    refine ⟨(if depth = 0 then [] else [[]]) ++ Graphical.header s depth f ++
      Graphical.message s f, Graphical.help s f ++ Graphical.footer s depth, fun links => ?_⟩
    have shown : Graphical.snippet s (.told depth { f with cause := links } source) =
        Graphical.snippet s (.told depth f source) := by cases source <;> rfl
    have told : Graphical.causes s (Graphical.tone s f) (Link.told links) =
        ((graphical handler).causes f links).flatten := Graphical.causes_eq_mapIdx ..
    rw [entry, Graphical.entry, shown, snippet, ← told]
    cases Graphical.snippet s (.told depth f source) with
    | error e => rfl
    | ok drawn =>
      simp only [bind, Except.bind, Except.map, pure, Except.pure, List.append_assoc]
      rfl
  | narrated settings =>
    refine ⟨(if depth = 0 then [] else [[]]) ++ [f.message.toList,
      ("    Diagnostic severity: " ++ f.graveness.name).toList], Narrated.closing f,
      fun links => ?_⟩
    rw [causes_narrated, List.append_assoc]
    cases source <;> rfl

end Handler

end Marginalia
