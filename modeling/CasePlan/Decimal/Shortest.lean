import CasePlan.Decimal.Rounding

/-!
# The fewest digits that read back

A double is written with the fewest significant digits whose nearest double it is; of several such
decimals the nearest one is taken, of two equally near the one with the even last digit.

`Binary.shortest` finds the digits by exact arithmetic.  For one, two, … digits it looks at the two
neighbours of the number on the grid of decimals of that length: a grid has a point that reads back
only if one of these two does.
-/

namespace CasePlan.Decimal

/-- The number `digits · 10 ^ exponent`. -/
structure Numeral where
  /-- The significant digits as a whole number. -/
  digits : Nat
  /-- The power of ten that they are multiplied with. -/
  exponent : Int
  deriving DecidableEq, Repr

/-- Number of decimal digits; zero has one. -/
def length (n : Nat) : Nat := (Nat.toDigits 10 n).length

/-- Loop of `strip`; `fuel` bounds the zeros that can be taken off. -/
def stripLoop : Nat → Nat → Int → Numeral
  | 0, digits, exponent => ⟨digits, exponent⟩
  | fuel + 1, digits, exponent =>
    if digits % 10 = 0 ∧ digits ≠ 0 then stripLoop fuel (digits / 10) (exponent + 1)
    else ⟨digits, exponent⟩

/-- The same number without zeros at the end of its digits. -/
def Numeral.strip (d : Numeral) : Numeral := stripLoop (length d.digits) d.digits d.exponent

namespace Binary

/-- The real numbers that read back as a double: `lower` to `upper`, around `value`, all in units
of `1 / denominator`; the ends belong to them if `closed`. -/
structure Interval where
  /-- Lower end. -/
  lower : Nat
  /-- The double itself. -/
  value : Nat
  /-- Upper end. -/
  upper : Nat
  /-- The common denominator. -/
  denominator : Nat
  /-- Whether the ends read back, too. -/
  closed : Bool

/-- The interval of a double's absolute value. -/
def interval (b : Binary) : Interval :=
  let e := b.exponent - 2
  let scale := if e ≥ 0 then Nat.pow 2 e.toNat else 1
  let low := if b.nearBelow then 1 else 2
  { lower := (4 * b.significand - low) * scale
    value := 4 * b.significand * scale
    upper := (4 * b.significand + 2) * scale
    denominator := if e ≥ 0 then 1 else Nat.pow 2 (-e).toNat
    closed := b.significand % 2 == 0 }

/-- Whether `n · 10 ^ exponent` reads back. -/
def Interval.holds (i : Interval) (n : Nat) (exponent : Int) : Bool :=
  let up := Nat.pow 10 exponent.toNat
  let down := Nat.pow 10 (-exponent).toNat
  let point := n * up * i.denominator
  if i.closed then i.lower * down ≤ point && point ≤ i.upper * down
  else i.lower * down < point && point < i.upper * down

/-- The number of digits before the point of `num / den`, negative for zeros after it. -/
def magnitude (num den : Nat) : Int :=
  let t : Int := (length num : Int) - length den
  if num * Nat.pow 10 (-t).toNat < den * Nat.pow 10 t.toNat then t else t + 1

/-- Tries `count` digits, then more while fuel lasts. -/
def search (i : Interval) (magnitude : Int) : Nat → Nat → Numeral
  | 0, _ => ⟨i.value / i.denominator, 0⟩
  | fuel + 1, count =>
    let exponent := magnitude - count
    let up := Nat.pow 10 exponent.toNat
    let down := Nat.pow 10 (-exponent).toNat
    let num := i.value * down
    let den := i.denominator * up
    let below := num / den
    match i.holds below exponent && below != 0, i.holds (below + 1) exponent with
    | true, true => Numeral.strip ⟨roundDiv num den, exponent⟩
    | true, false => Numeral.strip ⟨below, exponent⟩
    | false, true => Numeral.strip ⟨below + 1, exponent⟩
    | false, false => search i magnitude fuel (count + 1)

/-- The shortest decimal that reads back as the absolute value of the number. -/
def shortest (b : Binary) : Numeral :=
  if b.significand = 0 then ⟨0, 0⟩
  else
    let i := b.interval
    search i (magnitude i.value i.denominator) 17 1

end Binary

/-! ## Writing -/

/-- Zeros in a row. -/
def zeros (n : Nat) : Text := List.replicate n '0'

/-- Digits with a point: `12.5`, `0.001`, `100.0`. -/
def positional (d : Numeral) : Text :=
  let digits := Text.ofNat d.digits
  if d.exponent ≥ 0 then digits ++ zeros d.exponent.toNat ++ ".0"
  else
    let places := (-d.exponent).toNat
    if places < digits.length then
      let whole : Text := digits.take (digits.length - places)
      let fraction : Text := digits.drop (digits.length - places)
      whole ++ "." ++ fraction
    else "0." ++ zeros (places - digits.length) ++ digits

/-- One digit before the point and a power of ten with a sign and at least two digits: `1e+16`,
`1.5e-07`. -/
def scientific (d : Numeral) : Text :=
  let digits := Text.ofNat d.digits
  let exponent := d.exponent + digits.length - 1
  let first : Text := digits.take 1
  let more : Text := if digits.length = 1 then [] else CodePoint.ofChar '.' :: digits.drop 1
  let sign : Text := if exponent < 0 then "-" else "+"
  first ++ more ++ "e" ++ sign ++ Text.ofDigits 10 exponent.natAbs 2

/-- The usual text of a double: positional from `0.0001` to below `10 ^ 16` and always with a
point, scientific beyond; `inf` and `nan` for the others. -/
def ofFloat (x : Float) : Text :=
  match ofFloat? x with
  | none => if x.isNaN then "nan" else if x < 0.0 then "-inf" else "inf"
  | some b =>
    let d := b.shortest
    let place := d.exponent + length d.digits
    let sign : Text := if b.negative then "-" else []
    sign ++ (if -4 < place ∧ place ≤ 16 then positional d else scientific d)

end CasePlan.Decimal
