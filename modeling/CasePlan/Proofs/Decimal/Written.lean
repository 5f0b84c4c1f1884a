import CasePlan.Diagram.Coordinate
import CasePlan.Proofs.Text.Carried

/-!
# Written coordinates

A coordinate is written with digits, a point, signs and a few letters, so that XML can carry it.
`Coordinate.Legible` says so of a type of coordinates; rationals and doubles have it.
-/

namespace CasePlan

/-- XML can carry every coordinate as it is written. -/
class Coordinate.Legible (α : Type) [Coordinate α] : Prop where
  /-- It can carry a written coordinate. -/
  isXmlText_written : ∀ x : α, (Coordinate.written x).isXmlText = true

namespace Decimal

open Text

theorem isXmlText_zeros (n : Nat) : (zeros n).isXmlText = true :=
  isXmlText_replicate n (by decide)

/-- Digits with a point. -/
theorem isXmlText_positional (d : Numeral) : (positional d).isXmlText = true := by
  have hdigits := isXmlText_ofNat d.digits
  unfold positional
  simp only
  split
  · exact isXmlText_append.2 ⟨isXmlText_append.2 ⟨hdigits, isXmlText_zeros _⟩, by decide⟩
  split
  · exact isXmlText_append.2 ⟨isXmlText_append.2
      ⟨isXmlText_of_subset (List.take_subset _ _) hdigits, by decide⟩,
        isXmlText_of_subset (List.drop_subset _ _) hdigits⟩
  · exact isXmlText_append.2 ⟨isXmlText_append.2 ⟨by decide, isXmlText_zeros _⟩, hdigits⟩

/-- One digit before the point, and a power of ten. -/
theorem isXmlText_scientific (d : Numeral) : (scientific d).isXmlText = true := by
  have hdigits := isXmlText_ofNat d.digits
  have hpower : ∀ n : Nat, (ofDigits 10 n 2).isXmlText = true := fun n =>
    isXmlText_append.2 ⟨isXmlText_replicate _ (by decide), isXmlText_ofNat n⟩
  unfold scientific
  simp only [isXmlText_append]
  refine ⟨⟨⟨⟨isXmlText_of_subset (List.take_subset _ _) hdigits, ?_⟩, by decide⟩, ?_⟩, hpower _⟩
  · exact isXmlText_ite rfl
      (isXmlText_cons.2 ⟨by decide, isXmlText_of_subset (List.drop_subset _ _) hdigits⟩)
  · exact isXmlText_ite (by decide) (by decide)

theorem isXmlText_ofFloat (x : Float) : (ofFloat x).isXmlText = true := by
  unfold ofFloat
  split
  · exact isXmlText_ite (by decide) (isXmlText_ite (by decide) (by decide))
  · simp only [isXmlText_append]
    exact ⟨isXmlText_ite (by decide) (by decide),
      isXmlText_ite (isXmlText_positional _) (isXmlText_scientific _)⟩

theorem isXmlText_writtenRat (q : Rat) : (writtenRat q).isXmlText = true := by
  have hhundredths : ∀ (negative : Bool) (num den : Nat),
      (hundredths negative num den).isXmlText = true := fun _ _ _ =>
    isXmlText_append.2 ⟨isXmlText_ite (by decide) (by decide), isXmlText_positional _⟩
  exact isXmlText_ite (isXmlText_ofInt _) (hhundredths ..)

theorem isXmlText_writtenFloat (x : Float) : (writtenFloat x).isXmlText = true := by
  unfold writtenFloat
  split
  · exact isXmlText_ofFloat x
  · exact isXmlText_ite (isXmlText_ofInt _) (isXmlText_ofFloat _)

end Decimal

instance : Coordinate.Legible Rat := ⟨Decimal.isXmlText_writtenRat⟩

instance : Coordinate.Legible Float := ⟨Decimal.isXmlText_writtenFloat⟩

end CasePlan
