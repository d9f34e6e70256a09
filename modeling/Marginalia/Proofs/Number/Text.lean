import Marginalia.Number.Coordinate
import Marginalia.Proofs.Text.Renditions

/-!
# Coordinates as they are shown

A coordinate is shown with digits, signs, a point, an exponent or a word, so its text holds no
escape.
-/

namespace Marginalia

open Text (esc esc_not_mem_toString)

namespace Decimal

theorem digits_ofCoefficient_subset (coefficient : Nat) (exponent : Int) :
    (ofCoefficient coefficient exponent).digits ⊆ (toString coefficient).toList :=
  List.reverse_subset.mpr <| List.Subset.trans (List.dropWhile_sublist _).subset <|
    List.reverse_subset.mpr (List.Subset.refl _)

theorem esc_not_mem_digits_shortest (n d : Nat) : esc ∉ (shortest n d).digits := by
  unfold shortest
  cases found : ((List.range 17).map (· + 1)).findSome? (withDigits n d) with
  | none => decide
  | some x =>
    obtain ⟨count, -, written⟩ := List.exists_of_findSome?_eq_some found
    simp only [withDigits, Option.map_eq_some_iff] at written
    obtain ⟨coefficient, -, rfl⟩ := written
    exact fun member =>
      esc_not_mem_toString coefficient (digits_ofCoefficient_subset coefficient _ member)

theorem esc_not_mem_zeros (count : Int) : esc ∉ zeros count := fun member =>
  absurd (List.eq_of_mem_replicate member) (by decide)

theorem esc_not_mem_write (layout : Layout) {x : Decimal} (unescaped : esc ∉ x.digits) :
    esc ∉ x.write layout := by
  have taken (count : Nat) : esc ∉ x.digits.take count := mt List.mem_of_mem_take unescaped
  have dropped (count : Nat) : esc ∉ x.digits.drop count := mt List.mem_of_mem_drop unescaped
  have sign (power : Int) : esc ≠ (if power < 0 then '-' else '+') := by
    split <;> decide
  unfold write
  dsimp only
  split
  · rw [List.mem_append, List.mem_append, List.mem_cons, List.mem_cons]
    simp only [not_or]
    refine ⟨⟨taken 1, ?_⟩, by decide, sign _, esc_not_mem_toString _⟩
    split
    · exact List.not_mem_nil
    · rw [List.mem_cons, not_or]
      exact ⟨by decide, dropped 1⟩
  · split
    · rw [List.mem_append, not_or]
      exact ⟨unescaped, esc_not_mem_zeros _⟩
    · split
      · rw [List.mem_append, List.mem_cons]
        simp only [not_or]
        exact ⟨taken _, by decide, dropped _⟩
      · rw [List.mem_append, List.mem_cons, List.mem_cons]
        simp only [not_or]
        exact ⟨⟨by decide, by decide, esc_not_mem_zeros _⟩, unescaped⟩

end Decimal

theorem Number.esc_not_mem_text (x : Number) : esc ∉ x.text.toList := by
  cases x with
  | nan => decide
  | infinity negative => cases negative <;> decide
  | finite q =>
    have digits := Decimal.esc_not_mem_write Decimal.standard
      (Decimal.esc_not_mem_digits_shortest q.num.natAbs q.den)
    unfold text
    dsimp only
    rw [← @String.toList_ofList (Decimal.write _ _)] at digits
    generalize String.ofList _ = written at digits
    have sign : esc ∉ "-".toList := by decide
    split
    · decide
    · split
      · exact Text.esc_not_mem_append sign digits
      · exact digits

namespace Coordinate

/-- A kind of coordinate that is shown without escapes. -/
class Legible (κ : Type) [Coordinate κ] : Prop where
  esc_not_mem_text : ∀ x : κ, esc ∉ (Coordinate.text x).toList

instance : Legible Number := ⟨Number.esc_not_mem_text⟩

instance : Legible Int where
  esc_not_mem_text
    | .ofNat n => esc_not_mem_toString n
    | .negSucc n =>
      have sign : esc ∉ "-".toList := by decide
      Text.esc_not_mem_append sign (esc_not_mem_toString (n + 1))

end Coordinate

end Marginalia
