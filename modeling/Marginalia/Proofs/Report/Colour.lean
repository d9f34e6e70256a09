import Mathlib.Data.List.Forall2
import Marginalia.Proofs.Report.Outline
import Marginalia.Proofs.Snippet.Unescaped
import Marginalia.Report.Handler

/-!
# Reports in colour

A report in colour is the report without colour with renditions put in.  The widths that text is
wrapped to, the parts that are left out and the lines that are drawn do not depend on the palette, so
line by line both are the same once the renditions are taken out.  The report without colour has
renditions of its own only where a text that is wrapped brings something to begin one with.
-/

namespace Marginalia

open Text (esc Adorned unadorned Quiet)

/-! ## Lines in colour -/

/-- Lines in colour and the lines without: they are the same once the renditions are taken out, and
if the text is quiet there are none in the lines without colour. -/
structure Coloured (quiet : Prop) (us ps : List (List Char)) : Prop where
  same : us.map unadorned = ps.map unadorned
  bare : quiet → ∀ p ∈ ps, Adorned p p

namespace Coloured

variable {quiet : Prop} {us vs ps qs : List (List Char)}

theorem nil : Coloured quiet [] [] := ⟨rfl, fun _ => by simp⟩

theorem append (front : Coloured quiet us ps) (back : Coloured quiet vs qs) :
    Coloured quiet (us ++ vs) (ps ++ qs) where
  same := by rw [List.map_append, List.map_append, front.same, back.same]
  bare given := List.forall_mem_append.mpr ⟨front.bare given, back.bare given⟩

theorem of_adorned (adorned : List.Forall₂ Adorned us ps) : Coloured quiet us ps := by
  induction adorned with
  | nil => exact nil
  | @cons u p _ _ head _ ih =>
    have first : Coloured quiet [u] [p] :=
      ⟨by simp [head.unadorned_eq, head.bare.unadorned_eq], fun _ => by simpa using head.bare⟩
    exact first.append ih

theorem weaken {less : Prop} (coloured : Coloured quiet us ps) (enough : less → quiet) :
    Coloured less us ps :=
  ⟨coloured.same, fun given => coloured.bare (enough given)⟩

theorem flatten {uss pss : List (List (List Char))}
    (all : List.Forall₂ (Coloured quiet) uss pss) : Coloured quiet uss.flatten pss.flatten := by
  induction all with
  | nil => exact nil
  | cons head _ ih => exact head.append ih

/-- Lines are written one behind the other. -/
theorem written (coloured : Coloured quiet us ps) :
    unadorned (Handler.written us).flatten = unadorned (Handler.written ps).flatten ∧
      (quiet → unadorned (Handler.written ps).flatten = (Handler.written ps).flatten) := by
  have line_by_line (lines : List (List Char)) : unadorned (Handler.written lines).flatten =
      (Handler.written (lines.map unadorned)).flatten := by
    induction lines with
    | nil => rfl
    | cons line rest ih =>
      have front := Text.unadorned_append_feed line (Handler.written rest).flatten
      rw [ih] at front
      simpa [Handler.written] using front
  refine ⟨by rw [line_by_line, line_by_line, coloured.same], fun given => ?_⟩
  have kept : ps.map unadorned = ps := by
    rw [List.map_congr_left fun p member => (coloured.bare given p member).unadorned_eq,
      List.map_id']
  rw [line_by_line, kept]

end Coloured

/-! ## What comes out either way -/

/-- Two results that are the same error, or related. -/
inductive SameOutcome {ε α β : Type} (R : α → β → Prop) : Except ε α → Except ε β → Prop
  | error (e : ε) : SameOutcome R (.error e) (.error e)
  | ok {a : α} {b : β} (related : R a b) : SameOutcome R (.ok a) (.ok b)

namespace SameOutcome

variable {ε α β γ δ : Type} {R : α → β → Prop} {S : γ → δ → Prop} {x : Except ε α} {y : Except ε β}

theorem refl (x : Except ε α) : SameOutcome Eq x x := by
  cases x with
  | error e => exact .error e
  | ok a => exact .ok rfl

theorem weaken {T : α → β → Prop} (outcome : SameOutcome R x y) (enough : ∀ a b, R a b → T a b) :
    SameOutcome T x y := by
  cases outcome with
  | error e => exact .error e
  | ok related => exact .ok (enough _ _ related)

theorem bind {f : α → Except ε γ} {g : β → Except ε δ} (first : SameOutcome R x y)
    (second : ∀ a b, R a b → SameOutcome S (f a) (g b)) : SameOutcome S (x >>= f) (y >>= g) := by
  cases first with
  | error e => exact .error e
  | ok related => exact second _ _ related

theorem map {f : α → γ} {g : β → δ} (first : SameOutcome R x y)
    (second : ∀ a b, R a b → S (f a) (g b)) : SameOutcome S (x.map f) (y.map g) := by
  cases first with
  | error e => exact .error e
  | ok related => exact .ok (second _ _ related)

theorem mapM {f : γ → Except ε α} {g : γ → Except ε β} {cs : List γ}
    (each : ∀ c ∈ cs, SameOutcome R (f c) (g c)) :
    SameOutcome (List.Forall₂ R) (cs.mapM f) (cs.mapM g) := by
  induction cs with
  | nil => exact .ok .nil
  | cons c rest ih =>
    obtain ⟨first, others⟩ := List.forall_mem_cons.mp each
    rw [List.mapM_cons, List.mapM_cons]
    exact first.bind fun a b related => (ih others).bind fun as bs all => .ok (.cons related all)

end SameOutcome

/-! ## Wrapped text -/

namespace Text.Wrapping

variable {first first' others others' : List Char}

theorem visibleWidth_adorned {u p : List Char} (adorned : Adorned u p) (unescaped : esc ∉ p) :
    visibleWidth u = visibleWidth p := by
  rw [visibleWidth, visibleWidth, adorned.remove_reportEscape_eq unescaped,
    adorned.bare.remove_reportEscape_eq unescaped]

/-- What stands in front of lines leaves the same room in colour. -/
theorem lines_coloured (width : Nat) (first_adorned : Adorned first first')
    (others_adorned : Adorned others others') (first_unescaped : esc ∉ first')
    (others_unescaped : esc ∉ others') (text : List Char) :
    Coloured (Quiet text) (lines ⟨width, first, others⟩ text)
      (lines ⟨width, first', others'⟩ text) := by
  have room_eq : room ⟨width, first, others⟩ = room ⟨width, first', others'⟩ := by
    simp only [room, indent, visibleWidth_adorned first_adorned first_unescaped,
      visibleWidth_adorned others_adorned others_unescaped]
  have pieces_eq : pieces ⟨width, first, others⟩ text = pieces ⟨width, first', others'⟩ text := by
    rw [pieces, pieces, room_eq]
  have pieces_quiet (quiet : Quiet text) := pieces_quiet ⟨width, first', others'⟩ quiet
  have behind {u p : List Char} (adorned : Adorned u p) (piece : List Char) :
      unadorned (u ++ piece) = unadorned (p ++ piece) := by
    rw [adorned.unadorned_append, adorned.bare.unadorned_append]
  have bare {u p piece : List Char} (adorned : Adorned u p) (quiet : Quiet piece) :
      Adorned (p ++ piece) (p ++ piece) :=
    adorned.bare.append (.of_unescaped quiet.esc_not_mem)
  unfold lines
  rw [pieces_eq]
  generalize pieces ⟨width, first', others'⟩ text = pieces at pieces_quiet
  cases pieces with
  | nil => exact .nil
  | cons piece rest =>
    constructor
    · simp only [List.map_cons, List.map_map, Function.comp_def, behind first_adorned,
        behind others_adorned]
    · intro quiet
      obtain ⟨head, tail⟩ := List.forall_mem_cons.mp (pieces_quiet quiet)
      refine List.forall_mem_cons.mpr ⟨bare first_adorned head, fun line member => ?_⟩
      obtain ⟨other, inside, rfl⟩ := List.mem_map.mp member
      exact bare others_adorned (tail other inside)

end Text.Wrapping

/-! ## What is assumed of a report -/

variable {κ : Type}

/-- Whether nothing that is shown of a diagnostic holds an escape. -/
structure Facts.Unescaped (f : Statement κ) : Prop where
  message : esc ∉ f.message.toList
  code : ∀ code, f.code = some code → esc ∉ code.toList
  help : ∀ help, f.help = some help → esc ∉ help.toList
  url : ∀ url, f.url = some url → esc ∉ url.toList
  source : ∀ source, f.source = some source → source.Unescaped
  labels : ∀ l ∈ f.allLabels, l.Unescaped
  causes : ∀ link ∈ f.cause, esc ∉ link.message.toList

/-- Whether nothing in the text of a diagnostic that is wrapped begins an escape. -/
structure Facts.Quiet (f : Statement κ) : Prop where
  message : Text.Quiet f.message.toList
  help : ∀ help, f.help = some help → Text.Quiet help.toList
  causes : ∀ link ∈ f.cause, Text.Quiet link.message.toList

namespace Entry

/-- Whether nothing that an entry shows holds an escape. -/
def Unescaped : Entry κ → Prop
  | told _ f source => f.Unescaped ∧ ∀ s, source = some s → s.Unescaped
  | omitted _ _ => True

/-- Whether nothing in the text of an entry that is wrapped begins an escape. -/
def Quiet : Entry κ → Prop
  | told _ f _ => f.Quiet
  | omitted _ _ => True

theorem Unescaped.of_shown {e : Entry κ} (unescaped : e.Unescaped) {source : Source}
    {labels : List (Label κ)} (shown : e.shown? = some (source, labels)) :
    source.Unescaped ∧ ∀ l ∈ labels, l.Unescaped := by
  unfold shown? at shown
  split at shown
  · split at shown
    · cases shown
    · cases shown
      exact ⟨unescaped.2 source rfl, unescaped.1.labels⟩
  · cases shown

end Entry

/-- The settings without styles. -/
def Settings.undressed (s : Settings) : Settings := { s with manner := s.manner.undressed }

namespace Graphical

variable (s : Settings)

/-! ## The header -/

theorem tone_undressed (f : Statement κ) : tone s.undressed f = .plain := by
  unfold tone
  cases f.graveness <;> rfl

theorem paint_adorned (style : Style) {text : String} (unescaped : esc ∉ text.toList) :
    Adorned (style.paint text.toList) (Style.plain.paint text.toList) := by
  rw [Style.paint_plain]
  exact style.paint_adorned unescaped

theorem hyperlink_adorned {url : List Char} (unescaped : esc ∉ url) {u p : List Char}
    (adorned : Adorned u p) : Adorned (hyperlink url u) (hyperlink url p) := by
  have link {target : List Char} (unescaped : esc ∉ target) :
      Adorned (Text.linkTo target linkEnd) (Text.linkTo target linkEnd) := by
    have ended : Adorned linkEnd linkEnd := .escape (by decide) (by decide) .nil
    have begun : Adorned (esc :: Text.linkStart) (esc :: Text.linkStart) :=
      .escape (by decide) (by decide) (.of_unescaped (by decide))
    exact (begun.append (.of_unescaped unescaped)).append ended
  exact ((link unescaped).append adorned).append (link List.not_mem_nil)

section

variable {f : Statement κ} (unescaped : f.Unescaped)

include unescaped

theorem reference_adorned : Adorned (reference s f) (reference s.undressed f) := by
  have painted {text : String} (unescaped : esc ∉ text.toList) :
      Adorned ((tone s f).paint text.toList) ((tone s.undressed f).paint text.toList) := by
    rw [tone_undressed]
    exact paint_adorned _ unescaped
  have bracketed {url : String} (unescaped : esc ∉ url.toList) :
      Adorned ('(' :: s.manner.theme.palette.link.paint url.toList ++ [')'])
        ('(' :: s.undressed.manner.theme.palette.link.paint url.toList ++ [')']) :=
    (Adorned.plain (by decide) (paint_adorned _ unescaped)).append (.of_unescaped (by decide))
  have same_links : s.undressed.links = s.links := rfl
  unfold reference
  cases url_eq : f.url with
  | none =>
    cases code_eq : f.code with
    | none => exact .nil
    | some code => exact painted (unescaped.code code code_eq)
  | some url =>
    have url_unescaped := unescaped.url url url_eq
    rw [same_links]
    cases code_eq : f.code with
    | none =>
      dsimp only
      split
      · exact hyperlink_adorned url_unescaped (painted (by decide +kernel))
      · exact bracketed url_unescaped
    | some code =>
      have code_unescaped := unescaped.code code code_eq
      dsimp only
      split
      · refine hyperlink_adorned url_unescaped (painted ?_)
        exact Text.esc_not_mem_append code_unescaped (by decide +kernel)
      · exact (painted code_unescaped).append (.plain (by decide) (bracketed url_unescaped))

/-- Where there is no reference without colour, there is none in colour. -/
theorem reference_isEmpty : (reference s f).isEmpty = (reference s.undressed f).isEmpty := by
  have adorned := reference_adorned s unescaped
  cases empty : (reference s.undressed f).isEmpty with
  | false =>
    rw [List.isEmpty_eq_false_iff] at empty ⊢
    intro nothing
    rw [nothing] at adorned
    exact empty adorned.unadorned_eq.symm
  | true =>
    rw [List.isEmpty_iff] at empty ⊢
    unfold reference at empty ⊢
    cases url_eq : f.url with
    | some url =>
      simp only [url_eq] at empty
      split at empty
      · simp [hyperlink, Text.linkTo] at empty
      · cases code_eq : f.code <;> simp [code_eq] at empty
    | none =>
      cases code_eq : f.code with
      | none => rfl
      | some code =>
        simp only [url_eq, code_eq, tone_undressed, Style.paint_plain] at empty
        dsimp only
        rw [empty]
        rfl

theorem header_adorned (depth : Nat) :
    List.Forall₂ Adorned (header s depth f) (header s.undressed depth f) := by
  have reference := reference_adorned s unescaped
  have title : Adorned ((tone s f).paint (f.graveness.title ++ ":").toList)
      ((tone s.undressed f).paint (f.graveness.title ++ ":").toList) := by
    rw [tone_undressed]
    refine paint_adorned _ ?_
    cases f.graveness <;> decide +kernel
  unfold header
  dsimp only
  rw [reference_isEmpty s unescaped]
  split
  · split
    · exact .cons .nil .nil
    · exact .cons reference (.cons .nil .nil)
  · split
    · exact .cons title (.cons .nil .nil)
    · exact .cons (title.append (.plain (by decide) reference)) (.cons .nil .nil)

end

/-! ## Wrapped parts -/

theorem blanks_adorned (count : Nat) :
    Adorned (List.replicate count ' ') (List.replicate count ' ') :=
  .of_unescaped (Text.esc_not_mem_blanks count)

theorem mark_adorned (style : Style) {glyphs : List Char} (unescaped : esc ∉ glyphs)
    (behind : Nat) : Adorned (mark style glyphs behind) (mark .plain glyphs behind) := by
  have painted : Adorned (style.paint glyphs) (Style.plain.paint glyphs) := by
    rw [Style.paint_plain]
    exact style.paint_adorned unescaped
  exact ((blanks_adorned 2).append painted).append (blanks_adorned behind)

theorem esc_not_mem_mark {glyphs : List Char} (unescaped : esc ∉ glyphs) (behind : Nat) :
    esc ∉ mark .plain glyphs behind := by
  unfold mark
  rw [Style.paint_plain]
  simp [unescaped, Text.esc_ne_space]

theorem help_coloured (f : Statement κ) : Coloured f.Quiet (help s f) (help s.undressed f) := by
  have glyphs : esc ∉ "help:".toList := by decide +kernel
  unfold help
  split
  · rename_i help given
    refine Coloured.weaken ?_ fun quiet => quiet.help help given
    exact Text.Wrapping.lines_coloured _ (mark_adorned _ glyphs 1) (blanks_adorned 8)
      (esc_not_mem_mark glyphs 1) (Text.esc_not_mem_blanks 8) _
  · exact .nil

theorem footer_coloured (depth : Nat) :
    Coloured (∀ footer, s.footer = some footer → Quiet footer.toList) (footer s depth)
      (footer s.undressed depth) := by
  have same : footer s.undressed depth = footer s depth := rfl
  rw [same]
  unfold footer
  split
  · rename_i footer given
    have empty : List.Forall₂ Adorned [[]] [[]] := .cons .nil .nil
    refine (Coloured.of_adorned empty).append
      (Coloured.weaken ?_ fun quiet => quiet footer given)
    exact Text.Wrapping.lines_coloured _ (blanks_adorned 2) (blanks_adorned 2)
      (Text.esc_not_mem_blanks 2) (Text.esc_not_mem_blanks 2) _
  · exact .nil

variable (manner : s.manner.Unescaped)

include manner

theorem message_coloured (f : Statement κ) :
    Coloured f.Quiet (message s f) (message s.undressed f) := by
  have each := manner.glyphs.each
  have icon : esc ∉ [s.manner.theme.glyphs.icon f.graveness] := by
    cases f.graveness <;> simp [Glyphs.icon, each]
  have vertical : esc ∉ [s.manner.theme.glyphs.vertical] := by simp [each]
  unfold message
  dsimp only
  rw [tone_undressed]
  refine Coloured.weaken ?_ Facts.Quiet.message
  exact Text.Wrapping.lines_coloured _ (mark_adorned _ icon 1) (mark_adorned _ vertical 1)
    (esc_not_mem_mark icon 1) (esc_not_mem_mark vertical 1) _

theorem causes_coloured (style : Style) (links : List Link) :
    Coloured (∀ link ∈ links, Quiet link.message.toList) (causes s style links)
      (causes s.undressed .plain links) := by
  have each := manner.glyphs.each
  have vertical : esc ∉ [s.manner.theme.glyphs.vertical] := by simp [each]
  induction links with
  | nil => exact .nil
  | cons link rest ih =>
    refine Coloured.append (Coloured.weaken ?_ fun quiet => quiet link List.mem_cons_self)
      (ih.weaken fun quiet => (List.forall_mem_cons.mp quiet).2)
    -- behind the last cause nothing goes on below
    cases rest.isEmpty with
    | true =>
      have arrow : esc ∉ [s.manner.theme.glyphs.bottomCorner, s.manner.theme.glyphs.horizontal,
        s.manner.theme.glyphs.rightArrow] := by simp [each]
      exact Text.Wrapping.lines_coloured _ (mark_adorned style arrow 1) (blanks_adorned 6)
        (esc_not_mem_mark arrow 1) (Text.esc_not_mem_blanks 6) _
    | false =>
      have arrow : esc ∉ [s.manner.theme.glyphs.branch, s.manner.theme.glyphs.horizontal,
        s.manner.theme.glyphs.rightArrow] := by simp [each]
      exact Text.Wrapping.lines_coloured _ (mark_adorned style arrow 1)
        (mark_adorned style vertical 3) (esc_not_mem_mark arrow 1) (esc_not_mem_mark vertical 3) _

/-! ## Entries -/

variable [Coordinate κ] [Coordinate.Legible κ]

/-- A snippet is drawn in colour just where it is drawn without. -/
theorem snippet_adorned {e : Entry κ} (unescaped : e.Unescaped) :
    SameOutcome (List.Forall₂ Adorned) (snippet s e) (snippet s.undressed e) := by
  have same : s.undressed.manner = s.manner.undressed := rfl
  unfold snippet
  split
  · rename_i source labels shown
    obtain ⟨source_unescaped, labels_unescaped⟩ := unescaped.of_shown shown
    rw [same, Snippet.rows_undressed]
    cases drawn : Snippet.rows s.manner source labels with
    | error e => exact .error e
    | ok rows =>
      have rows_unescaped :=
        Snippet.rows_unescaped manner source_unescaped labels_unescaped drawn
      refine .ok ?_
      dsimp only
      rw [List.map_map, List.forall₂_map_left_iff, List.forall₂_map_right_iff, List.forall₂_same]
      exact fun row member => (rows_unescaped row member).adorned
  · exact .ok .nil

/-- An entry in colour and without. -/
theorem entry_coloured {e : Entry κ} (unescaped : e.Unescaped) :
    SameOutcome (Coloured (e.Quiet ∧ ∀ footer, s.footer = some footer → Quiet footer.toList))
      (entry s e) (entry s.undressed e) := by
  cases e with
  | omitted depth count =>
    refine .ok (.of_adorned (.cons .nil (.cons (.of_unescaped (Text.esc_not_mem_join ?_)) .nil)))
    have each (n : Nat) : esc ∉ (toString n).toList := Text.esc_not_mem_toString n
    simp only [List.forall_mem_cons, each, not_false_eq_true, true_and]
    decide +kernel
  | told depth f source =>
    refine (snippet_adorned s manner unescaped).bind fun us ps adorned => .ok ?_
    have behind : Coloured (f.Quiet ∧ ∀ footer, s.footer = some footer → Quiet footer.toList)
        (if depth = 0 then [] else [[]]) (if depth = 0 then [] else [[]]) := by
      split
      · exact .nil
      · exact .of_adorned (.cons .nil .nil)
    have causes := causes_coloured s manner (tone s f) (Link.told f.cause)
    rw [tone_undressed]
    have told (quiet : f.Quiet) : ∀ link ∈ Link.told f.cause, Quiet link.message.toList :=
      fun link member => quiet.causes link (List.mem_of_mem_take member)
    exact (((((behind.append (.of_adorned (header_adorned s unescaped.1 depth))).append
      ((message_coloured s manner f).weaken And.left)).append
      (causes.weaken fun quiet => told quiet.1)).append (.of_adorned adorned)).append
      ((help_coloured s f).weaken And.left)).append ((footer_coloured s depth).weaken And.right)

/-! ## Reports -/

theorem lines_coloured {report : Report κ} (unescaped : ∀ f ∈ report.statements, f.Unescaped) :
    SameOutcome
      (Coloured ((∀ footer, s.footer = some footer → Quiet footer.toList) ∧
        ∀ f ∈ report.statements, f.Quiet))
      (lines s report) (lines s.undressed report) := by
  refine (SameOutcome.mapM fun e member => ?_).map fun _ _ => Coloured.flatten
  have tells := report.outline_tells s.depthLimit e member
  have entry_unescaped : e.Unescaped := by
    cases e with
    | omitted => trivial
    | told depth f source =>
      refine ⟨unescaped f tells.1, fun t found => ?_⟩
      obtain ⟨g, g_member, g_source⟩ := (tells.2 t found).resolve_left (by simp)
      exact (unescaped g g_member).source t g_source
  refine (entry_coloured s manner entry_unescaped).weaken fun _ _ coloured =>
    coloured.weaken fun quiet => ⟨?_, quiet.1⟩
  cases e with
  | omitted => trivial
  | told depth f source => exact quiet.2 f tells.1

end Graphical

/-- A theme in colour with the one of the same glyphs without. -/
inductive Theme.Paired : Theme → Theme → Prop
  | unicode : Paired .unicode .unicodePlain
  | ascii : Paired .ascii .asciiPlain

namespace Options

/-- The graphical report of a tree that options ask for, in a theme. -/
def render [Coordinate κ] (o : Options) (theme : Theme) (report : Report κ) :
    Except OptionError (Except (SpanError κ) (List Char)) :=
  (Handler.ofGraphical { o with theme := some theme }).map (·.text report)

theorem render_eq [Coordinate κ] (o : Options) (theme : Theme) (report : Report κ) :
    o.render theme report =
      ({ o with theme := some theme } : Options).resolve.map fun s =>
        (Graphical.lines s report).map fun lines => (Handler.written lines).flatten := by
  unfold render Handler.ofGraphical GraphicalHandler.ofOptions
  split
  · rename_i settings resolved
    simp only [resolved, Except.map, Handler.text, Handler.lines]
  · rename_i e refused
    simp only [refused, Except.map]

/-- Settings in colour go with settings without. -/
theorem resolve_paired (o : Options) {coloured uncoloured : Theme}
    (paired : coloured.Paired uncoloured) (highlighter : o.highlighter.getD .plain = .plain) :
    SameOutcome (fun s t => t = s.undressed ∧ s.manner.Unescaped ∧ s.footer = o.footer)
      ({ o with theme := some coloured } : Options).resolve
      ({ o with theme := some uncoloured } : Options).resolve := by
  refine (SameOutcome.refl _).bind fun before _ same => ?_
  subst same
  refine (SameOutcome.refl _).bind fun after _ same => ?_
  subst same
  refine (SameOutcome.refl _).bind fun width _ same => ?_
  subst same
  refine (SameOutcome.refl _).bind fun tab _ same => ?_
  subst same
  refine (SameOutcome.refl _).bind fun depth _ same => ?_
  subst same
  cases paired with
  | unicode => exact .ok ⟨rfl, ⟨Glyphs.unescaped_unicode, highlighter⟩, rfl⟩
  | ascii => exact .ok ⟨rfl, ⟨Glyphs.unescaped_ascii, highlighter⟩, rfl⟩

end Options

namespace Graphical

/-- Colour changes no layout.  Either theme of a pair gives the same error, or both give a report,
and the renditions taken out, one is the other.  The report without colour has none to take out
unless a text that is wrapped begins an escape. -/
theorem colour_keeps_layout [Coordinate κ] [Coordinate.Legible κ] (o : Options)
    (highlighter : o.highlighter.getD .plain = .plain) {coloured uncoloured : Theme}
    (paired : coloured.Paired uncoloured) (report : Report κ)
    (unescaped : ∀ f ∈ report.statements, f.Unescaped) :
    SameOutcome
      (SameOutcome fun u p => unadorned u = unadorned p ∧
        ((∀ footer, o.footer = some footer → Quiet footer.toList) →
          (∀ f ∈ report.statements, f.Quiet) → unadorned u = p))
      (o.render coloured report) (o.render uncoloured report) := by
  rw [o.render_eq, o.render_eq]
  refine (o.resolve_paired paired highlighter).map fun s t ⟨undressed, manner, footer⟩ => ?_
  subst undressed
  refine (lines_coloured s manner unescaped).map fun us ps lines => ?_
  obtain ⟨same, bare⟩ := lines.written
  refine ⟨same, fun footer_quiet quiet => same.trans (bare ⟨?_, quiet⟩)⟩
  rwa [footer]

/-- A warning with all its parts, and another diagnostic related to it. -/
def warned : Report Int :=
  .group
    { message := "unused name", code := some "W1", severity := some .warning
      help := some "drop it", url := some "https://example.org/W1"
      source := some ⟨some "a.txt", none, [0x6C, 0x65, 0x74, 0x20, 0x61, 0x0A]⟩
      labels := some [⟨⟨4, 1⟩, some "never read", none⟩], cause := [⟨"Error", "not exported"⟩] }
    [.alone { message := "see here", cause := [] }]

/-- A warning in colour and without, at a width that its message does not fit. -/
theorem colour_keeps_layout_warned :
    ({ width := some (.ofNat 12) } : Options).highlighter.getD .plain = .plain ∧
      Theme.unicode.Paired .unicodePlain ∧ (∀ f ∈ warned.statements, f.Unescaped) ∧
      (∀ f ∈ warned.statements, f.Quiet) ∧
      SameOutcome (SameOutcome fun u p => unadorned u = p)
        (({ width := some (.ofNat 12) } : Options).render .unicode warned)
        (({ width := some (.ofNat 12) } : Options).render .unicodePlain warned) := by
  have unescaped : ∀ f ∈ warned.statements, f.Unescaped := by
    refine List.forall_mem_cons.mpr ⟨?_, List.forall_mem_singleton.mpr ?_⟩
    · constructor
      case source =>
        rintro _ ⟨⟩
        refine ⟨?_, by decide⟩
        rintro _ ⟨⟩
        decide +kernel
      case labels =>
        refine List.forall_mem_singleton.mpr ?_
        rintro _ ⟨⟩
        decide +kernel
      all_goals decide +kernel
    · constructor
      case source => rintro _ ⟨⟩
      case labels => simp [Facts.allLabels]
      all_goals decide +kernel
  have quiet : ∀ f ∈ warned.statements, f.Quiet := by
    refine List.forall_mem_cons.mpr ⟨?_, List.forall_mem_singleton.mpr ?_⟩
    · constructor
      case message => exact Text.quiet_of_all (by decide +kernel)
      case help =>
        rintro _ ⟨⟩
        exact Text.quiet_of_all (by decide +kernel)
      case causes => exact List.forall_mem_singleton.mpr (Text.quiet_of_all (by decide +kernel))
    · constructor
      case message => exact Text.quiet_of_all (by decide +kernel)
      case help => rintro _ ⟨⟩
      case causes => simp
  refine ⟨rfl, .unicode, unescaped, quiet, ?_⟩
  exact (colour_keeps_layout _ rfl .unicode warned unescaped).weaken fun _ _ texts =>
    texts.weaken fun _ _ text => text.2 (by simp) quiet

/-- A text that is wrapped may bring what begins a rendition: one character for an escape with its
bracket, or an escape in the footer.  Then the report without colour is not free of renditions. -/
theorem not_colour_keeps_layout :
    (¬∀ report : Report Int, (∀ f ∈ report.statements, f.Unescaped) →
        (({ width := some (.ofNat 9) } : Options).render .unicode report).map (·.map unadorned) =
          ({ width := some (.ofNat 9) } : Options).render .unicodePlain report) ∧
      ¬∀ footer : String,
        (({ footer := some footer } : Options).render .unicode warned).map (·.map unadorned) =
          ({ footer := some footer } : Options).render .unicodePlain warned := by
  constructor
  · intro same
    have different := same (.alone { message := "a\u009b[31m bcdef", cause := [] }) ?_
    · exact absurd different (by decide +kernel)
    · refine List.forall_mem_singleton.mpr ?_
      constructor
      case source => rintro _ ⟨⟩
      case labels => simp [Facts.allLabels]
      all_goals decide +kernel
  · intro same
    exact absurd (same "\x1b[1mx") (by decide +kernel)

end Graphical

end Marginalia
