import Marginalia.Proofs.Report.Causes
import Marginalia.Proofs.Report.Colour

/-!
# Wrapped parts of a report

Messages, causes, help and footers of printable text stay within the width of a report.  The marks in
front of them are drawn in styles, but an indent with renditions takes the columns of the bare one
and leaves the rest of the width to the text behind it.
-/

namespace Marginalia

open Text (esc IsIndent PrintableLines)

variable {κ : Type}

/-! ## Themes -/

namespace Theme

/-- The themes that are there to choose from. -/
def presets : List Theme := [.unicode, .unicodePlain, .ascii, .asciiPlain]

theorem glyphs_unescaped {theme : Theme} (preset : theme ∈ presets) : theme.glyphs.Unescaped := by
  have drawn : ∀ theme ∈ presets, theme.glyphs = .unicode ∨ theme.glyphs = .ascii := by decide
  rcases drawn theme preset with eq | eq
  · exact eq ▸ Glyphs.unescaped_unicode
  · exact eq ▸ Glyphs.unescaped_ascii

end Theme

namespace Graphical

/-! ## Indents -/

theorem blanks_isIndent (count : Nat) : IsIndent (List.replicate count ' ') :=
  ⟨_, blanks_adorned count, Text.esc_not_mem_blanks count⟩

theorem mark_isIndent (style : Style) {glyphs : List Char} (unescaped : esc ∉ glyphs)
    (behind : Nat) : IsIndent (mark style glyphs behind) :=
  ⟨_, mark_adorned style unescaped behind, esc_not_mem_mark unescaped behind⟩

variable (s : Settings)

/-- How a message is wrapped. -/
def messageWrapping (f : Statement κ) : Text.Wrapping where
  width := s.width
  first := mark (tone s f) [s.manner.theme.glyphs.icon f.graveness] 1
  others := mark (tone s f) [s.manner.theme.glyphs.vertical] 1

/-- How a help is wrapped. -/
def helpWrapping : Text.Wrapping where
  width := s.width
  first := mark s.manner.theme.palette.help "help:".toList 1
  others := List.replicate 8 ' '

/-- How a footer is wrapped. -/
def footerWrapping : Text.Wrapping := ⟨s.width, List.replicate 2 ' ', List.replicate 2 ' '⟩

/-! ## Parts -/

theorem help_wraps {f : Statement κ} {text : String} (given : f.help = some text)
    (printable : PrintableLines text.toList) :
    (helpWrapping s).Wraps text.toList (help s f) := by
  have wrapped := Text.Wrapping.lines_wraps
    (w := helpWrapping s) (mark_isIndent s.manner.theme.palette.help (by decide +kernel) 1)
    (blanks_isIndent 8) printable
  unfold help
  rw [given]
  exact wrapped

theorem footer_wraps {text : String} (given : s.footer = some text)
    (printable : PrintableLines text.toList) :
    ∃ lines, footer s 0 = [] :: lines ∧ (footerWrapping s).Wraps text.toList lines := by
  refine ⟨(footerWrapping s).lines text.toList, ?_, ?_⟩
  · unfold footer
    rw [given]
    rfl
  · exact Text.Wrapping.lines_wraps (blanks_isIndent 2) (blanks_isIndent 2) printable

section

variable {s} (drawn : s.manner.theme.glyphs.Unescaped)

include drawn

theorem message_wraps {f : Statement κ} (printable : PrintableLines f.message.toList) :
    (messageWrapping s f).Wraps f.message.toList (message s f) := by
  have each := drawn.each
  have icon : esc ∉ [s.manner.theme.glyphs.icon f.graveness] := by
    cases f.graveness <;> simp [Glyphs.icon, each]
  have vertical : esc ∉ [s.manner.theme.glyphs.vertical] := by simp [each]
  exact Text.Wrapping.lines_wraps (mark_isIndent _ icon 1) (mark_isIndent _ vertical 1) printable

theorem cause_wraps (style : Style) (isLast : Bool) {text : List Char}
    (printable : PrintableLines text) :
    (causeWrapping s style isLast).Wraps text ((causeWrapping s style isLast).lines text) := by
  have each := drawn.each
  refine Text.Wrapping.lines_wraps (mark_isIndent _ ?_ 1) ?_ printable
  · cases isLast <;> simp [each]
  · cases isLast
    · exact mark_isIndent _ (by simp [each]) 3
    · exact blanks_isIndent 6

end

variable {s}

/-- Whatever width and preset there is, the message of a diagnostic, each of its causes, its help and
the footer are wrapped within the width wherever they are printable, and the lines of an entry are
those of its parts. -/
theorem parts_wrapped [Coordinate κ] (preset : s.manner.theme ∈ Theme.presets) (depth : Nat)
    (f : Statement κ) (source : Option Source) :
    (PrintableLines f.message.toList →
      (messageWrapping s f).Wraps f.message.toList (message s f)) ∧
    (∃ blocks : List (List (List Char)),
      causes s (tone s f) (Link.told f.cause) = blocks.flatten ∧
      blocks.length = (Link.told f.cause).length ∧
      ∀ i link, (Link.told f.cause)[i]? = some link → PrintableLines link.message.toList →
        ∃ block, blocks[i]? = some block ∧
          (causeWrapping s (tone s f) (i + 1 = (Link.told f.cause).length)).Wraps
            link.message.toList block) ∧
    (∀ text, f.help = some text → PrintableLines text.toList →
      (helpWrapping s).Wraps text.toList (help s f)) ∧
    (∀ text, s.footer = some text → PrintableLines text.toList →
      ∃ lines, footer s 0 = [] :: lines ∧ (footerWrapping s).Wraps text.toList lines) ∧
    entry s (.told depth f source) = (snippet s (.told depth f source)).map
      ((if depth = 0 then [] else [[]]) ++ header s depth f ++ message s f ++
        causes s (tone s f) (Link.told f.cause) ++ · ++ help s f ++ footer s depth) := by
  have drawn := Theme.glyphs_unescaped preset
  refine ⟨message_wraps drawn, ⟨_, causes_eq_mapIdx .., List.length_mapIdx, ?_⟩,
    fun text => help_wraps s, fun text => footer_wraps s, ?_⟩
  · intro i link told printable
    rw [List.getElem?_mapIdx, told]
    exact ⟨_, rfl, cause_wraps drawn _ _ printable⟩
  · unfold entry
    cases snippet s (.told depth f source) <;> rfl

/-- A warning with something to wrap in each part. -/
def lengthy : Statement Int where
  message := "unused name\nof a value"
  severity := some .warning
  help := some "drop it or export it"
  cause := [⟨"Error", "it is not exported"⟩, ⟨"Error", "there\n\nis no use"⟩]

/-- Ten columns, of which the indent of a help leaves two. -/
def narrow : Settings where
  manner := ⟨1, 1, 4, .unicode, .plain⟩
  width := 10
  links := true
  footer := some "see the manual\n"
  depthLimit := 16

theorem parts_wrapped_lengthy :
    narrow.manner.theme ∈ Theme.presets ∧ PrintableLines lengthy.message.toList ∧
      (∀ link ∈ Link.told lengthy.cause, PrintableLines link.message.toList) ∧
      PrintableLines "drop it or export it".toList ∧ PrintableLines "see the manual\n".toList ∧
      (∀ line ∈ message narrow lengthy ++ help narrow lengthy, Text.visibleWidth line ≤ 10) ∧
      ∃ lines, footer narrow 0 = [] :: lines ∧ ∀ line ∈ lines, Text.visibleWidth line ≤ 10 := by
  have preset : narrow.manner.theme ∈ Theme.presets := by decide
  have message_printable : PrintableLines lengthy.message.toList := by decide +kernel
  have help_printable : PrintableLines "drop it or export it".toList := by decide +kernel
  have footer_printable : PrintableLines "see the manual\n".toList := by decide +kernel
  obtain ⟨message, -, help, footer, -⟩ := parts_wrapped preset 0 lengthy none
  obtain ⟨lines, footer_eq, footer⟩ := footer _ rfl footer_printable
  have message_short := (message message_printable).within (by decide +kernel)
  have help_short := (help _ rfl help_printable).within (by decide +kernel)
  exact ⟨preset, message_printable, by decide +kernel, help_printable, footer_printable,
    List.forall_mem_append.mpr ⟨message_short, help_short⟩, lines, footer_eq,
    footer.within (by decide +kernel)⟩

end Graphical

end Marginalia
