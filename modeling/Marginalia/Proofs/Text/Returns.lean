import Marginalia.Proofs.Source.Chain
import Marginalia.Proofs.Source.Returns

/-!
# Text with carriage returns put in

In text that has no carriage return of its own, one that is put in front of every line feed becomes
part of the terminator: the text is cut into as many pieces, and none of them has another content.
-/

namespace Marginalia

open Extent (lineAt lineFeed carriageReturn)

namespace Returns

/-- A text with a carriage return in front of every line feed. -/
def ofText (cs : List Char) : List Char :=
  cs.flatMap fun c => if c = '\n' then ['\r', '\n'] else [c]

theorem ofText_feed (cs : List Char) : ofText ('\n' :: cs) = '\r' :: '\n' :: ofText cs := rfl

theorem ofText_cons {c : Char} (other : c ≠ '\n') (cs : List Char) :
    ofText (c :: cs) = c :: ofText cs := by
  rw [ofText, List.flatMap_cons, if_neg other]
  rfl

theorem ofText_append (front back : List Char) :
    ofText (front ++ back) = ofText front ++ ofText back :=
  List.flatMap_append

theorem ofText_of_feed_not_mem {cs : List Char} (absent : '\n' ∉ cs) : ofText cs = cs := by
  induction cs with
  | nil => rfl
  | cons c cs ih =>
    rw [List.mem_cons, not_or] at absent
    rw [ofText_cons (Ne.symm absent.1), ih absent.2]

theorem ofBytes_of_feed_not_mem {bytes : List UInt8} (absent : lineFeed ∉ bytes) :
    ofBytes bytes = bytes := by
  induction bytes with
  | nil => rfl
  | cons b bytes ih =>
    rw [List.mem_cons, not_or] at absent
    rw [ofBytes, List.flatMap_cons, if_neg (Ne.symm absent.1)]
    exact congrArg (b :: ·) (ih absent.2)

theorem encode_ofText (cs : List Char) : Utf8.encode (ofText cs) = ofBytes (Utf8.encode cs) := by
  induction cs with
  | nil => rfl
  | cons c cs ih =>
    rw [Utf8.encode_cons, ofBytes_append, ← ih]
    by_cases feed : c = '\n'
    · subst feed
      rfl
    · rw [ofText_cons feed, Utf8.encode_cons,
        ofBytes_of_feed_not_mem (Utf8.feed_not_mem_encodeChar feed)]

/-- A text of a source grows by as much as the place behind it is moved farther than the place in
front of it. -/
theorem shift_add_length {bytes : List UInt8} {start : Nat} {cs rest : List Char}
    (encoded : bytes.drop start = Utf8.encode (cs ++ rest)) :
    shift bytes (start + Utf8.length cs) = shift bytes start + Utf8.length (ofText cs) := by
  have text_eq : (bytes.drop start).take (Utf8.length cs) = Utf8.encode cs := by
    rw [encoded, Utf8.encode_append, ← Utf8.length_encode, List.take_left]
  have lineAt_eq : lineAt bytes (start + Utf8.length cs) =
      lineAt bytes start + (Utf8.encode cs).count lineFeed := by
    rw [lineAt, List.take_add, List.count_append, text_eq]
    rfl
  have length_eq := length_ofBytes (Utf8.encode cs)
  rw [← encode_ofText, Utf8.length_encode, Utf8.length_encode] at length_eq
  rw [shift, shift, lineAt_eq, length_eq]
  omega

theorem head?_ofText_ne_mark {cs : List Char} (unmarked : cs.head? ≠ some Utf8.mark) :
    (ofText cs).head? ≠ some Utf8.mark := by
  cases cs with
  | nil => simp [ofText]
  | cons c cs =>
    by_cases feed : c = '\n'
    · subst feed
      rw [ofText_feed, List.head?_cons]
      decide
    · rw [ofText_cons feed]
      exact unmarked

end Returns

open Returns

namespace Line

theorem pieces_ofText (cs : List Char) : pieces (ofText cs) = (pieces cs).map ofText := by
  induction cs with
  | nil => rfl
  | cons c cs ih =>
    by_cases feed : c = '\n'
    · subst feed
      rw [ofText_feed, pieces, if_neg (by decide), pieces, if_pos rfl, pieces, if_pos rfl, ih]
      rfl
    · rw [ofText_cons feed, pieces, if_neg feed, pieces, if_neg feed, ih]
      cases pieces cs with
      | nil => simp [ofText, feed]
      | cons piece others => simp [ofText_cons feed]

/-- What becomes of a piece without carriage returns: its line feed gets one, if it has a line
feed. -/
theorem ofText_piece {piece : List Char} (absent : '\n' ∉ piece.dropLast) (plain : '\r' ∉ piece) :
    ofText piece = piece ∨
      ∃ content, piece = content ++ ['\n'] ∧ ofText piece = content ++ ['\r', '\n'] ∧
        withoutTerminator piece = content := by
  have ends := ends_withoutTerminator piece
  have content_absent := ends.feed_not_mem absent
  generalize withoutTerminator piece = content at ends content_absent
  cases ends with
  | returned => exact absurd (by simp) plain
  | fed =>
    refine .inr ⟨content, rfl, ?_, rfl⟩
    rw [ofText_append, ofText_of_feed_not_mem content_absent]
    rfl
  | unended => exact .inl (ofText_of_feed_not_mem content_absent)

theorem withoutTerminator_ofText {piece : List Char} (absent : '\n' ∉ piece.dropLast)
    (plain : '\r' ∉ piece) : withoutTerminator (ofText piece) = withoutTerminator piece := by
  rcases ofText_piece absent plain with same | ⟨content, -, returned, content_eq⟩
  · rw [same]
  · rw [returned, content_eq]
    simp [withoutTerminator]

theorem isTerminated_ofText {piece : List Char} (absent : '\n' ∉ piece.dropLast)
    (plain : '\r' ∉ piece) : isTerminated (ofText piece) = isTerminated piece := by
  rcases ofText_piece absent plain with same | ⟨content, piece_eq, returned, -⟩
  · rw [same]
  · rw [returned, piece_eq]
    simp [isTerminated]

/-- A line of a source once the returns are put in. -/
def withReturns (bytes : List UInt8) (line : Line Int) : Line Int where
  number := line.number
  offset := (motion bytes).place line.offset
  length := (motion bytes).place line.stop - (motion bytes).place line.offset
  text := ofText line.text
  content := line.content
  atEnd := line.atEnd

theorem stop_withReturns (bytes : List UInt8) (line : Line Int) :
    (line.withReturns bytes).stop = (motion bytes).place line.stop := by
  simp only [stop, withReturns]
  omega

variable {bytes : List UInt8}

theorem place_ofText {ps : List (List Char)} {rest : List Char} {start : Nat} (number : Nat)
    (encoded : bytes.drop start = Utf8.encode (ps.flatten ++ rest))
    (cut : ∀ piece ∈ ps, '\n' ∉ piece.dropLast) (plain : ∀ piece ∈ ps, '\r' ∉ piece) :
    place (ofBytes bytes).length number ((motion bytes).place start) (ps.map ofText) =
      (place bytes.length number (start : Int) ps).map (withReturns bytes) := by
  induction ps generalizing number start with
  | nil => rfl
  | cons piece ps ih =>
    obtain ⟨piece_cut, ps_cut⟩ := List.forall_mem_cons.mp cut
    obtain ⟨piece_plain, ps_plain⟩ := List.forall_mem_cons.mp plain
    rw [List.flatten_cons, List.append_assoc] at encoded
    have next : bytes.drop (start + Utf8.length piece) = Utf8.encode (ps.flatten ++ rest) := by
      rw [← List.drop_drop, encoded, Utf8.encode_append, ← Utf8.length_encode, List.drop_left]
    have passed : pass (start : Int) piece = ((start + Utf8.length piece : Nat) : Int) := by
      rw [pass_eq, Int.natCast_add]
    have passed' : pass ((motion bytes).place start) (ofText piece) =
        (motion bytes).place (start + Utf8.length piece : Nat) := by
      rw [pass_eq, place_natCast, place_natCast, shift_add_length encoded, Int.natCast_add]
    have behind := ih (number + 1) next ps_cut ps_plain
    have at_end : Coordinate.Same ((motion bytes).place (start + Utf8.length piece : Nat))
        ((ofBytes bytes).length : Int) ↔
        Coordinate.Same ((start + Utf8.length piece : Nat) : Int) (bytes.length : Int) := by
      rw [length_ofBytes_eq_shift, ← place_natCast]
      exact (motion bytes).same_place_iff
    have stop_eq : (start : Int) + ((start + Utf8.length piece : Nat) - (start : Int)) =
        (start + Utf8.length piece : Nat) := by omega
    rw [List.map_cons, place, place, List.map_cons, passed, passed', behind]
    simp only [withReturns, stop, stop_eq, at_end, withoutTerminator_ofText piece_cut piece_plain,
      isTerminated_ofText piece_cut piece_plain]

/-- The lines of a window once the returns are put in. -/
theorem scan_withReturns {c : Contents Int} {front back : List Char} (nonneg : 0 ≤ c.start)
    (encoded : bytes.drop c.start.toNat = Utf8.encode (front ++ back))
    (data_eq : c.data = Utf8.encode front) (unmarked : front.head? ≠ some Utf8.mark)
    (plain : '\r' ∉ front) :
    scan (c.withReturns bytes) (ofBytes bytes).length =
      (scan c bytes.length).map (withReturns bytes) := by
  have start_eq := Int.toNat_of_nonneg nonneg
  have cut : ∀ piece ∈ pieces front, '\n' ∉ piece.dropLast := fun piece member =>
    (feed_not_mem_dropLast member).2
  have all_plain : ∀ piece ∈ pieces front, '\r' ∉ piece := fun piece member within =>
    plain (flatten_pieces front ▸ List.mem_flatten.mpr ⟨piece, member, within⟩)
  rw [← flatten_pieces front] at encoded
  have placed := place_ofText (c.line + 1) encoded cut all_plain
  rw [start_eq] at placed
  rw [scan, scan, Contents.withReturns, data_eq, ← encode_ofText,
    Utf8.decode_encode (head?_ofText_ne_mark unmarked), Utf8.decode_encode unmarked, pieces_ofText]
  exact placed

end Line

end Marginalia
