/-!
# Texts as lists of code points

Names, labels and documents are handled as `Text`, the list of their Unicode code points.  A
surrogate is a code point like any other here: an escape in a JSON text can produce one on its own,
and whether a text may stand in a document is a question asked of it later (`Text/Class`).

* `Text.ofString` / `Text.toString` lead from and to the strings of the surrounding program.
* `Text.ofNat` / `Text.ofInt` write numbers in decimal.
* `Text.splitOn`, `Text.join`, `Text.replaceAll` cut texts at a separator and put them together.
-/

namespace CasePlan

/-- A Unicode code point; surrogates are included. -/
abbrev CodePoint := Fin 0x110000

/-- A text is the list of its code points. -/
abbrev Text := List CodePoint

instance CodePoint.instNeZero : @NeZero Nat Zero.ofOfNat0 0x110000 := ⟨by decide⟩

instance CodePoint.instLawfulBEq : LawfulBEq CodePoint := inferInstance

instance Text.instLawfulBEq : LawfulBEq Text := inferInstance

/-- The code point of a character. -/
def CodePoint.ofChar (c : Char) : CodePoint :=
  ⟨c.toNat, by
    have h := c.valid
    simp only [UInt32.isValidChar, Nat.isValidChar] at h
    show c.val.toNat < 0x110000
    omega⟩

instance : Coe Char CodePoint := ⟨CodePoint.ofChar⟩

/-- The line feed. -/
def CodePoint.lineFeed : CodePoint := '\n'

/-- The carriage return. -/
def CodePoint.carriageReturn : CodePoint := '\r'

/-- The quotation mark. -/
def CodePoint.quotationMark : CodePoint := '"'

/-- The code point with a given number; numbers beyond the range become the replacement
character. -/
def CodePoint.ofNat (n : Nat) : CodePoint :=
  if h : n < 0x110000 then ⟨n, h⟩ else 0xFFFD

/-- The character of a code point; a surrogate has none and becomes the replacement character. -/
def CodePoint.toChar (c : CodePoint) : Char :=
  if c.val < 0xD800 ∨ 0xDFFF < c.val then Char.ofNat c.val else '\uFFFD'

namespace Text

/-- The code points of a string. -/
def ofString (s : String) : Text := s.toList.map CodePoint.ofChar

instance : Coe String Text := ⟨ofString⟩

/-- The string with these code points. -/
def toString (t : Text) : String := String.ofList (t.map CodePoint.toChar)

/-! ## Numbers -/

/-- A natural number in decimal. -/
def ofNat (n : Nat) : Text := (Nat.toDigits 10 n).map CodePoint.ofChar

/-- An integer in decimal, with a sign in front of negative ones. -/
def ofInt : Int → Text
  | .ofNat n => ofNat n
  | .negSucc n => CodePoint.ofChar '-' :: ofNat (n + 1)

/-- The digits of `n` in a base up to sixteen, in lower case, filled with zeros to `width`. -/
def ofDigits (base n width : Nat) : Text :=
  let digits := (Nat.toDigits base n).map CodePoint.ofChar
  List.replicate (width - digits.length) (CodePoint.ofChar '0') ++ digits

/-! ## Cutting and joining -/

/-- The texts with a separator between neighbours. -/
def join (separator : Text) : List Text → Text
  | [] => []
  | [t] => t
  | t :: rest => t ++ separator ++ join separator rest

/-- The rest after a beginning, if the text begins so. -/
def after? (beginning t : Text) : Option Text :=
  if beginning.isPrefixOf t then some (t.drop beginning.length) else none

/-- The rest before an ending, if the text ends so. -/
def before? (ending t : Text) : Option Text :=
  if ending.isSuffixOf t then some (t.take (t.length - ending.length)) else none

/-- Whether `needle` occurs in the text. -/
def contains (needle : Text) : Text → Bool
  | [] => needle.isEmpty
  | c :: rest => needle.isPrefixOf (c :: rest) || contains needle rest

/-- The part of a text before the first occurrence of a code point. -/
def upTo (stop : CodePoint) (t : Text) : Text := t.takeWhile (· ≠ stop)

/-- Loop of `splitOn`: `part` is the piece under way, reversed, `done` the finished ones. -/
def splitLoop (separator : Text) (t part : Text) (done : List Text) : List Text :=
  match t with
  | [] => (part.reverse :: done).reverse
  | c :: rest =>
    if separator.isPrefixOf (c :: rest) then
      splitLoop separator (rest.drop (separator.length - 1)) [] (part.reverse :: done)
    else splitLoop separator rest (c :: part) done
termination_by t.length
decreasing_by
  all_goals simp only [List.length_cons, List.length_drop]; omega

/-- The pieces between the occurrences of a separator, found from left to right without overlap.
An empty separator cuts before, between and after all code points. -/
def splitOn (separator t : Text) : List Text :=
  if separator.isEmpty then [] :: t.map ([·]) ++ [[]] else splitLoop separator t [] []

/-- The text with every occurrence of `old` replaced. -/
def replaceAll (old new t : Text) : Text := join new (splitOn old t)

/-- A text written `width` wide, filled with blanks on the right. -/
def padRight (width : Nat) (t : Text) : Text :=
  t ++ List.replicate (width - t.length) (CodePoint.ofChar ' ')

/-! ## Order -/

/-- Whether one text comes before another in the order of code points. -/
def precedes : Text → Text → Bool
  | [], [] => false
  | [], _ :: _ => true
  | _ :: _, [] => false
  | a :: s, b :: t => a < b || (a == b && precedes s t)

/-- Whether a text comes before another or equals it. -/
def precedesOrEq (s t : Text) : Bool := !precedes t s

end Text

end CasePlan
