import Marginalia.Proofs.Text.Escapes
import Marginalia.Report.Graphical

/-!
# Links of a report

A text that links to an address stands between two escapes: one begins the link and one ends it.
Both are taken out where columns are counted, and the text keeps the columns that it has without the
link.  It may hold escapes of its own, and the last of them may be cut off: the escape that ends the
link does not go on with that one.
-/

namespace Marginalia.Graphical

open Text (esc bell linkTo remove reportEscape visibleWidth)

/-- Of a link its own two escapes are taken out, wherever it stands; the text and what is around it
lose the escapes that they have without the link. -/
theorem remove_append_hyperlink {url : List Char} (unescaped : esc ∉ url) (silent : bell ∉ url)
    (front text back : List Char) :
    remove reportEscape (front ++ (hyperlink url text ++ back)) =
      remove reportEscape front ++ (remove reportEscape text ++ remove reportEscape back) := by
  have ends : Text.EndsLink linkEnd := .escape
  calc remove reportEscape (front ++ (hyperlink url text ++ back))
      = remove reportEscape
          (front ++ (linkTo url linkEnd ++ (text ++ (linkTo [] linkEnd ++ back)))) := by
        rw [hyperlink, List.append_assoc, List.append_assoc]
    _ = remove reportEscape front ++ remove reportEscape (text ++ (linkTo [] linkEnd ++ back)) :=
        Text.remove_append_linkTo unescaped silent ends front _
    _ = remove reportEscape front ++ (remove reportEscape text ++ remove reportEscape back) := by
        rw [Text.remove_append_linkTo List.not_mem_nil List.not_mem_nil ends]

/-- A link takes no columns: whatever text links to an address, it is as wide as it is alone. -/
theorem visibleWidth_hyperlink (url text : List Char) (unescaped : esc ∉ url)
    (silent : bell ∉ url) : visibleWidth (hyperlink url text) = visibleWidth text := by
  have removed := remove_append_hyperlink unescaped silent [] text []
  have nothing : remove reportEscape [] = [] := rfl
  rw [nothing, List.nil_append, List.nil_append, List.append_nil, List.append_nil] at removed
  rw [visibleWidth, visibleWidth, removed]

/-- An address that can be linked to. -/
def address : List Char := "https://example.com/E0001".toList

/-- A text with a whole rendition and with a link that is cut off in its address. -/
def cutInAddress : List Char := "\x1b[31m×\x1b]8;;docs".toList

/-- A text with a link that is cut off between the two characters that would end it. -/
def cutInEnd : List Char := "a\x1b[1;3\x1b]8;;\x1b".toList

theorem visibleWidth_hyperlink_cut_off :
    esc ∉ address ∧ bell ∉ address ∧
      visibleWidth (hyperlink address cutInAddress) = visibleWidth cutInAddress ∧
      visibleWidth cutInAddress = 9 ∧
      visibleWidth (hyperlink address cutInEnd) = visibleWidth cutInEnd ∧
      visibleWidth cutInEnd = 9 := by
  have unescaped : esc ∉ address := by decide
  have silent : bell ∉ address := by decide
  have in_address := visibleWidth_hyperlink address cutInAddress unescaped silent
  have in_end := visibleWidth_hyperlink address cutInEnd unescaped silent
  exact ⟨unescaped, silent, in_address, by decide +kernel, in_end, by decide +kernel⟩

end Marginalia.Graphical
