import Marginalia.Proofs.Text.Decoding

/-!
# Well-formed text

What is encoded is decoded again, one character after the other, whatever stands behind it.  Line
feeds and carriage returns are bytes of their own and part of no other character, so an encoded text
can be cut at a line feed, and both parts are encoded texts.
-/

namespace Marginalia.Utf8

open Extent (lineFeed carriageReturn)

/-! ## One character -/

section

variable {p : Pending} {b : UInt8}

theorem decodeFrom_last (fits : p.least ≤ b.toNat ∧ b.toNat ≤ p.most) (last : p.more = 0)
    (rest : List UInt8) :
    decodeFrom (some p) (b :: rest) =
      Char.ofNat (p.bits * 64 + b.toNat % 64) :: decodeFrom none rest := by
  simp only [decodeFrom, step, if_pos fits, last]
  rfl

theorem decodeFrom_more (fits : p.least ≤ b.toNat ∧ b.toNat ≤ p.most) {more : Nat}
    (some_more : p.more = more + 1) (rest : List UInt8) :
    decodeFrom (some p) (b :: rest) =
      decodeFrom (some ⟨p.bits * 64 + b.toNat % 64, more, 0x80, 0xBF⟩) rest := by
  simp only [decodeFrom, step, if_pos fits, some_more]
  rfl

theorem start_two (least : 0xC2 ≤ b.toNat) (most : b.toNat < 0xE0) :
    start b = ([], some ⟨b.toNat - 0xC0, 0, 0x80, 0xBF⟩) := by
  unfold start
  dsimp only
  rw [if_neg (by omega), if_neg (by omega), if_pos most]

theorem start_three (least : 0xE0 ≤ b.toNat) (most : b.toNat < 0xF0) :
    start b = ([], some ⟨b.toNat - 0xE0, 1, if b.toNat = 0xE0 then 0xA0 else 0x80,
      if b.toNat = 0xED then 0x9F else 0xBF⟩) := by
  unfold start
  dsimp only
  rw [if_neg (by omega), if_neg (by omega), if_neg (by omega)]
  split
  · rename_i first
    simp [first]
  · split
    · rename_i last
      simp [last]
    · rfl

theorem start_four (least : 0xF0 ≤ b.toNat) (most : b.toNat < 0xF5) :
    start b = ([], some ⟨b.toNat - 0xF0, 2, if b.toNat = 0xF0 then 0x90 else 0x80,
      if b.toNat = 0xF4 then 0x8F else 0xBF⟩) := by
  unfold start
  dsimp only
  rw [if_neg (by omega), if_neg (by omega), if_neg (by omega), if_neg (by omega),
    if_neg (by omega), if_neg (by omega)]
  split
  · rename_i first
    simp [first]
  · split
    · rename_i between
      rw [if_neg (by omega)]
    · rw [if_pos (by omega), if_pos (by omega)]

end

/-- The byte with the lowest six bits of a number, behind the first one of a character. -/
theorem toNat_tail (n : Nat) : (UInt8.ofNat (n % 64 + 128)).toNat = n % 64 + 128 :=
  UInt8.toNat_ofNat_of_lt' (by simp [UInt8.size]; omega)

theorem toNat_head (bits mark size : Nat) (lt : bits < size) (le : size + mark ≤ 256) :
    (UInt8.ofNat (bits % size + mark)).toNat = bits + mark := by
  rw [Nat.mod_eq_of_lt lt, UInt8.toNat_ofNat_of_lt' (by simp [UInt8.size]; omega)]

theorem decodeFrom_two {n : Nat} (least : 0x80 ≤ n) (most : n < 0x800) (rest : List UInt8) :
    decodeFrom none (.ofNat (n / 64 % 32 + 192) :: .ofNat (n % 64 + 128) :: rest) =
      Char.ofNat n :: decodeFrom none rest := by
  have head := toNat_head (n / 64) 192 32 (by omega) (by omega)
  have last := toNat_tail n
  rw [decodeFrom, step, start_two (by omega) (by omega), List.nil_append,
    decodeFrom_last ⟨by dsimp only; omega, by dsimp only; omega⟩ rfl]
  congr 2
  dsimp only
  omega

theorem decodeFrom_three {n : Nat} (least : 0x800 ≤ n) (most : n < 0x10000)
    (valid : n < 0xD800 ∨ 0xDFFF < n) (rest : List UInt8) :
    decodeFrom none (.ofNat (n / 4096 % 16 + 224) :: .ofNat (n / 64 % 64 + 128) ::
        .ofNat (n % 64 + 128) :: rest) =
      Char.ofNat n :: decodeFrom none rest := by
  have head := toNat_head (n / 4096) 224 16 (by omega) (by omega)
  have second := toNat_tail (n / 64)
  have last := toNat_tail n
  rw [decodeFrom, step, start_three (by omega) (by omega), List.nil_append,
    decodeFrom_more ⟨by dsimp only; split <;> omega, by dsimp only; split <;> omega⟩ rfl,
    decodeFrom_last ⟨by dsimp only; omega, by dsimp only; omega⟩ rfl]
  congr 2
  dsimp only
  omega

theorem decodeFrom_four {n : Nat} (least : 0x10000 ≤ n) (most : n < 0x110000)
    (rest : List UInt8) :
    decodeFrom none (.ofNat (n / 262144 % 8 + 240) :: .ofNat (n / 4096 % 64 + 128) ::
        .ofNat (n / 64 % 64 + 128) :: .ofNat (n % 64 + 128) :: rest) =
      Char.ofNat n :: decodeFrom none rest := by
  have head := toNat_head (n / 262144) 240 8 (by omega) (by omega)
  have second := toNat_tail (n / 4096)
  have third := toNat_tail (n / 64)
  have last := toNat_tail n
  rw [decodeFrom, step, start_four (by omega) (by omega), List.nil_append,
    decodeFrom_more ⟨by dsimp only; split <;> omega, by dsimp only; split <;> omega⟩ rfl,
    decodeFrom_more ⟨by dsimp only; omega, by dsimp only; omega⟩ rfl,
    decodeFrom_last ⟨by dsimp only; omega, by dsimp only; omega⟩ rfl]
  congr 2
  dsimp only
  omega

/-- A character is read from its bytes. -/
theorem decodeFrom_encodeChar (c : Char) (rest : List UInt8) :
    decodeFrom none (String.utf8EncodeChar c ++ rest) = c :: decodeFrom none rest := by
  have valid : c.toNat < 0xD800 ∨ 0xDFFF < c.toNat ∧ c.toNat < 0x110000 := c.valid
  have toNat_eq : c.val.toNat = c.toNat := rfl
  have read : Char.ofNat c.toNat = c := Char.ofNat_toNat c
  unfold String.utf8EncodeChar
  simp only [toNat_eq]
  split
  · rename_i one
    have head : (UInt8.ofNat c.toNat).toNat = c.toNat :=
      UInt8.toNat_ofNat_of_lt' (by simp [UInt8.size]; omega)
    rw [List.singleton_append, decodeFrom, step, start]
    simp only [head]
    rw [if_pos (by omega), read]
    rfl
  · split
    · rename_i two
      exact (decodeFrom_two (by omega) (by omega) rest).trans (by rw [read])
    · split
      · rename_i three
        exact (decodeFrom_three (by omega) (by omega) (by omega) rest).trans (by rw [read])
      · rename_i four
        exact (decodeFrom_four (by omega) (by omega) rest).trans (by rw [read])

theorem length_encodeChar (c : Char) : (String.utf8EncodeChar c).length = charSize c := by
  have toNat_eq : c.val.toNat = c.toNat := rfl
  unfold String.utf8EncodeChar charSize size
  simp only [toNat_eq]
  by_cases one : c.toNat < 0x80
  · rw [if_pos one, if_pos (Nat.le_of_lt_succ one)]
    rfl
  · rw [if_neg one, if_neg fun le => one (Nat.lt_succ_of_le le)]
    by_cases two : c.toNat < 0x800
    · rw [if_pos two, if_pos (Nat.le_of_lt_succ two)]
      rfl
    · rw [if_neg two, if_neg fun le => two (Nat.lt_succ_of_le le)]
      by_cases three : c.toNat < 0x10000
      · rw [if_pos three, if_pos (Nat.le_of_lt_succ three)]
        rfl
      · rw [if_neg three, if_neg fun le => three (Nat.lt_succ_of_le le)]
        rfl

/-- A byte that could be a character stands for it and is part of no other. -/
theorem eq_of_mem_encodeChar {b : UInt8} {c : Char} (ascii : b.toNat < 0x80)
    (member : b ∈ String.utf8EncodeChar c) : String.utf8EncodeChar c = [b] := by
  unfold String.utf8EncodeChar at *
  dsimp only at *
  split at member
  · rename_i one
    rw [if_pos one, List.mem_singleton.mp member]
  · rename_i longer
    exfalso
    have large (n : Nat) (lt : n < 256) (ge : 128 ≤ n) : b ≠ .ofNat n := by
      rintro rfl
      rw [UInt8.toNat_ofNat_of_lt' lt] at ascii
      omega
    split at member
    · simp only [List.mem_cons, List.not_mem_nil, or_false] at member
      rcases member with same | same
      all_goals exact large _ (by omega) (by omega) same
    · split at member
      · simp only [List.mem_cons, List.not_mem_nil, or_false] at member
        rcases member with same | same | same
        all_goals exact large _ (by omega) (by omega) same
      · simp only [List.mem_cons, List.not_mem_nil, or_false] at member
        rcases member with same | same | same | same
        all_goals exact large _ (by omega) (by omega) same

theorem charSize_pos (c : Char) : 0 < charSize c := by
  unfold charSize size
  split
  · decide
  · split
    · decide
    · split <;> decide

/-! ## Many characters -/

theorem encode_cons (c : Char) (cs : List Char) :
    encode (c :: cs) = String.utf8EncodeChar c ++ encode cs :=
  List.flatMap_cons

theorem encode_append (front back : List Char) :
    encode (front ++ back) = encode front ++ encode back :=
  List.flatMap_append

theorem decodeFrom_encode_append (cs : List Char) (rest : List UInt8) :
    decodeFrom none (encode cs ++ rest) = cs ++ decodeFrom none rest := by
  induction cs with
  | nil => rfl
  | cons c cs ih =>
    rw [encode_cons, List.append_assoc, decodeFrom_encodeChar, ih]
    rfl

theorem decodeFrom_encode (cs : List Char) : decodeFrom none (encode cs) = cs := by
  have decoded := decodeFrom_encode_append cs []
  rwa [List.append_nil, decodeFrom, Option.isSome_none, if_neg Bool.false_ne_true,
    List.append_nil] at decoded

theorem encode_injective {cs others : List Char} (same : encode cs = encode others) :
    cs = others := by
  rw [← decodeFrom_encode cs, same, decodeFrom_encode]

theorem length_encode (cs : List Char) : (encode cs).length = length cs := by
  induction cs with
  | nil => rfl
  | cons c cs ih => rw [encode_cons, List.length_append, length_encodeChar, ih, length]

theorem length_append (front back : List Char) :
    length (front ++ back) = length front + length back := by
  rw [← length_encode, encode_append, List.length_append, length_encode, length_encode]

/-- A text that does not begin with a byte-order mark is decoded as it is. -/
theorem decode_encode {cs : List Char} (unmarked : cs.head? ≠ some mark) :
    decode (encode cs) = cs := by
  rw [decode, decodeFrom_encode]
  cases cs with
  | nil => rfl
  | cons c cs =>
    rw [withoutMark, if_neg fun same => unmarked (by rw [same, List.head?_cons])]

/-- The front of a text has no byte-order mark if the text has none. -/
theorem head?_ne_mark {front back : List Char} (unmarked : (front ++ back).head? ≠ some mark) :
    front.head? ≠ some mark := by
  cases front with
  | nil => simp
  | cons _ _ => exact unmarked

/-! ## Line feeds and carriage returns -/

theorem encodeChar_feed : String.utf8EncodeChar '\n' = [lineFeed] := by decide

/-- An ASCII byte stands for nothing but its own character. -/
theorem ascii_mem_encode_iff {b : UInt8} {c : Char} (ascii : b.toNat < 0x80)
    (alone : String.utf8EncodeChar c = [b]) (cs : List Char) : b ∈ encode cs ↔ c ∈ cs := by
  constructor
  · intro member
    obtain ⟨d, d_member, byte_member⟩ := List.mem_flatMap.mp member
    have single := eq_of_mem_encodeChar ascii byte_member
    rw [← alone] at single
    have same : encode [d] = encode [c] := by simpa [encode] using single
    cases encode_injective same
    exact d_member
  · intro member
    exact List.mem_flatMap.mpr ⟨_, member, by rw [alone]; exact List.mem_singleton_self _⟩

theorem feed_mem_encode_iff (cs : List Char) : lineFeed ∈ encode cs ↔ '\n' ∈ cs :=
  ascii_mem_encode_iff (by decide) encodeChar_feed cs

theorem return_mem_encode_iff (cs : List Char) : carriageReturn ∈ encode cs ↔ '\r' ∈ cs :=
  ascii_mem_encode_iff (by decide) (by decide) cs

theorem feed_not_mem_encodeChar {c : Char} (other : c ≠ '\n') :
    lineFeed ∉ String.utf8EncodeChar c := by
  intro member
  have present : lineFeed ∈ encode [c] := by simpa [encode] using member
  exact other (List.mem_singleton.mp ((feed_mem_encode_iff [c]).mp present)).symm

/-- An encoded text is cut at its first line feed into two encoded texts. -/
theorem exists_text_of_feed {cs : List Char} {front back : List UInt8}
    (encoded : encode cs = front ++ lineFeed :: back) (absent : lineFeed ∉ front) :
    ∃ piece rest, cs = piece ++ '\n' :: rest ∧ encode piece = front ∧ encode rest = back := by
  induction cs generalizing front with
  | nil => simp [encode] at encoded
  | cons c cs ih =>
    rw [encode_cons] at encoded
    by_cases feed : c = '\n'
    · subst feed
      rw [encodeChar_feed, List.singleton_append] at encoded
      cases front with
      | nil => exact ⟨[], cs, rfl, rfl, (List.cons.inj encoded).2⟩
      | cons b front => exact absurd (List.mem_cons.mpr (.inl (List.cons.inj encoded).1)) absent
    · have apart := feed_not_mem_encodeChar feed
      obtain ⟨front', rfl⟩ : ∃ front', front = String.utf8EncodeChar c ++ front' := by
        rcases List.append_eq_append_iff.mp encoded with
          ⟨middle, front_eq, -⟩ | ⟨middle, eq, behind⟩
        · exact ⟨middle, front_eq⟩
        · cases middle with
          | nil => exact ⟨[], by simpa using eq.symm⟩
          | cons b middle =>
            refine absurd ?_ apart
            rw [eq, (List.cons.inj behind).1]
            exact List.mem_append_right _ List.mem_cons_self
      rw [List.append_assoc, List.append_cancel_left_eq] at encoded
      obtain ⟨piece, rest, rfl, piece_eq, rest_eq⟩ :=
        ih encoded fun member => absent (List.mem_append_right _ member)
      exact ⟨c :: piece, rest, rfl, by rw [encode_cons, piece_eq], rest_eq⟩

end Marginalia.Utf8
