import CasePlan.Text.Basic

/-!
# Rounding quotients

* `roundDiv` rounds a quotient of natural numbers to the nearest one, a half to the even neighbour.
* `Binary` is a finite binary floating-point number taken apart: a sign, a whole significand and
  the power of two it is multiplied with.  `ofFloat?` takes a `Float` apart without loss.
* `toFloat` is the double nearest to a decimal, `ofInt` the double nearest to an integer.
-/

namespace CasePlan.Decimal

/-- The quotient `num / den` rounded to nearest, a half to the even neighbour. -/
def roundDiv (num den : Nat) : Nat :=
  let q := num / den
  let r := num % den
  if 2 * r < den then q else if den < 2 * r then q + 1 else if q % 2 = 0 then q else q + 1

/-- The number `± significand · 2 ^ exponent`. -/
structure Binary where
  /-- Whether the sign bit is set. -/
  negative : Bool
  /-- The whole significand. -/
  significand : Nat
  /-- The power of two that it is multiplied with. -/
  exponent : Int
  /-- Whether the next smaller double is only half as far away as the next greater one. -/
  nearBelow : Bool := false
  deriving DecidableEq, Repr

/-- A finite double taken apart; an infinity or a NaN has no parts. -/
def ofFloat? (x : Float) : Option Binary :=
  let bits : Nat := x.toBits.toNat
  let biased : Nat := bits / Nat.pow 2 52 % Nat.pow 2 11
  let fraction : Nat := bits % Nat.pow 2 52
  let negative := bits / Nat.pow 2 63 == 1
  if biased = 2047 then none
  else if biased = 0 then some ⟨negative, fraction, -1074, false⟩
  else some ⟨negative, Nat.pow 2 52 + fraction, (biased : Int) - 1075, fraction == 0 && biased != 1⟩

namespace Binary

/-- Numerator and denominator of the absolute value. -/
def ratio (b : Binary) : Nat × Nat :=
  if b.exponent ≥ 0 then (b.significand * Nat.pow 2 b.exponent.toNat, 1)
  else (b.significand, Nat.pow 2 (-b.exponent).toNat)

/-- Whether the number is whole. -/
def isWhole (b : Binary) : Bool := b.ratio.1 % b.ratio.2 == 0

/-- The number as a rational. -/
def toRat (b : Binary) : Rat :=
  let (num, den) := b.ratio
  let value : Rat := mkRat num den
  if b.negative then -value else value

/-- The whole part, fractions cut off. -/
def truncate (b : Binary) : Int :=
  let whole : Int := (b.ratio.1 / b.ratio.2 : Nat)
  if b.negative then -whole else whole

end Binary

/-- The double nearest to `± digits · 10 ^ exponent`; beyond the range of doubles an infinity or
zero. -/
def toFloat (negative : Bool) (digits : Nat) (exponent : Int) : Float :=
  let length : Int := (Nat.toDigits 10 digits).length
  let magnitude : Float :=
    if digits = 0 then 0.0
    else if length + exponent > 400 then 1.0 / 0.0
    else if length + exponent < -400 then 0.0
    else if exponent ≥ 0 then Float.ofScientific digits false exponent.toNat
    else Float.ofScientific digits true (-exponent).toNat
  if negative then -magnitude else magnitude

/-- The double nearest to an integer. -/
def ofInt (n : Int) : Float := toFloat (n < 0) n.natAbs 0

end CasePlan.Decimal
