import CasePlan.Decimal.Shortest

/-!
# Coordinates

Positions and sizes are numbers of a type with the operations of `Coordinate`.  Diagrams that are
laid out here have exact rational coordinates; a diagram given from outside has doubles, and all
that is derived from it is computed in doubles, in the order in which it is written.

A coordinate is written without a fraction if it is whole, and otherwise rounded to two places, a
half to the even neighbour.
-/

namespace CasePlan

/-- Numbers that positions and sizes are made of. -/
class Coordinate (α : Type) extends Add α, Sub α where
  /-- A whole number. -/
  ofNat : Nat → α
  /-- A multiple. -/
  times : α → Nat → α
  /-- A part. -/
  part : α → Nat → α
  /-- Whether one number is less than another. -/
  less : α → α → Bool
  /-- Whether one number is at most another. -/
  atMost : α → α → Bool
  /-- The number as it is written in a document. -/
  written : α → Text

namespace Decimal

/-- The quotient `num / den` in hundredths, rounded, with one or two places. -/
def hundredths (negative : Bool) (num den : Nat) : Text :=
  let sign : Text := if negative then "-" else []
  sign ++ positional (Numeral.strip ⟨roundDiv (num * 100) den, -2⟩)

/-- A rational as a coordinate is written. -/
def writtenRat (q : Rat) : Text :=
  if q.den = 1 then Text.ofInt q.num else hundredths (q.num < 0) q.num.natAbs q.den

/-- A double as a coordinate is written: the rounded value is a double again. -/
def writtenFloat (x : Float) : Text :=
  match ofFloat? x with
  | none => ofFloat x
  | some b =>
    if b.isWhole then Text.ofInt b.truncate
    else
      let (num, den) := b.ratio
      ofFloat (toFloat b.negative (roundDiv (num * 100) den) (-2))

end Decimal

instance : Coordinate Rat where
  ofNat n := n
  times q n := q * n
  part q n := q / n
  less p q := decide (p < q)
  atMost p q := decide (p ≤ q)
  written := Decimal.writtenRat

instance : Coordinate Float where
  ofNat n := n.toFloat
  times x n := x * n.toFloat
  part x n := x / n.toFloat
  less x y := x < y
  atMost x y := x ≤ y
  written := Decimal.writtenFloat

end CasePlan
