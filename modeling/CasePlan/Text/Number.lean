import CasePlan.Decimal.Rounding
import CasePlan.Text.Class
import CasePlan.Text.Digit

/-!
# Numbers typed by people

A number in a setting may have white space around it, a sign, digits of any script, and single low
lines between digits.

* `readWhole?` reads whole numbers, `readFloat?` doubles, which may have a point and an exponent or
  be one of the words for infinity and NaN.
* `readPlainFloat?` is the same without scripts and low lines.
-/

namespace CasePlan.Text

/-! ## Plain spelling -/

/-- The part of a text made of the digits `0` to `9`, and the rest. -/
def asciiDigits (t : Text) : Text × Text := t.span fun c => (asciiDigit? c).isSome

/-- The number that ASCII digits stand for. -/
def digitsWorth (digits : Text) : Nat :=
  digits.foldl (fun n c => n * 10 + (asciiDigit? c).getD 0) 0

/-- A sign, if there is one: whether it is a minus, and the rest. -/
def readSign : Text → Bool × Text
  | [] => (false, [])
  | c :: rest =>
    if c = '-' then (true, rest) else if c = '+' then (false, rest) else (false, c :: rest)

/-- The exponent at the end of a number; an absent one is zero. -/
def readExponent? : Text → Option Int
  | [] => some 0
  | c :: rest =>
    if c = 'e' ∨ c = 'E' then
      let (negative, rest) := readSign rest
      let (digits, rest) := asciiDigits rest
      if digits.isEmpty ∨ !rest.isEmpty then none
      else some (if negative then -(digitsWorth digits : Int) else digitsWorth digits)
    else none

/-- A decimal without sign as a double. -/
def readDecimal? (negative : Bool) (t : Text) : Option Float := do
  let (whole, rest) := asciiDigits t
  let (fraction, rest) :=
    match rest with
    | c :: after => if c = '.' then asciiDigits after else ([], rest)
    | [] => ([], [])
  if whole.isEmpty ∧ fraction.isEmpty then none
  let exponent ← readExponent? rest
  pure (Decimal.toFloat negative (digitsWorth (whole ++ fraction)) (exponent - fraction.length))

/-- The double that a text spells in ASCII: a decimal or the word for infinity or NaN, after an
optional sign. -/
def readPlainFloat? (t : Text) : Option Float :=
  let (negative, rest) := readSign t
  let word := rest.lower
  let sign : Float := if negative then -1.0 else 1.0
  if word = ("inf" : Text) ∨ word = ("infinity" : Text) then some (sign / 0.0)
  else if word = ("nan" : Text) then some (0.0 / 0.0)
  else readDecimal? negative rest

/-! ## Scripts and low lines -/

/-- White space around a number: blanks other than the separator controls. -/
def isMargin (c : CodePoint) : Bool := isBlank c && !(28 ≤ c.val && c.val ≤ 31)

/-- The text without white space around it. -/
def trim (t : Text) : Text := ((t.dropWhile isMargin).reverse.dropWhile isMargin).reverse

/-- A digit of any script as an ASCII digit; other code points stay. -/
def plainDigit (c : CodePoint) : CodePoint :=
  match digit? c with
  | some d => CodePoint.ofNat (0x30 + d)
  | none => c

/-- Takes out the low lines that stand between two digits; `afterDigit` tells whether a digit comes
before.  Any other low line is a fault. -/
def dropLowLines? (afterDigit : Bool) : Text → Option Text
  | [] => some []
  | [c] => if c = '_' then none else some [c]
  | c :: d :: rest =>
    if c = '_' then
      if afterDigit ∧ (asciiDigit? d).isSome then dropLowLines? false (d :: rest) else none
    else (dropLowLines? (asciiDigit? c).isSome (d :: rest)).map (c :: ·)

/-- The plain spelling of a typed number. -/
def plainNumber? (t : Text) : Option Text :=
  dropLowLines? false (t.trim.map plainDigit)

/-- The whole number that a text spells. -/
def readWhole? (t : Text) : Option Int := do
  let (negative, digits) := readSign (← plainNumber? t)
  if digits.isEmpty ∨ !(digits.all fun c => (asciiDigit? c).isSome) then none
  pure (if negative then -(digitsWorth digits : Int) else digitsWorth digits)

/-- The double that a text spells. -/
def readFloat? (t : Text) : Option Float := do readPlainFloat? (← plainNumber? t)

end CasePlan.Text
