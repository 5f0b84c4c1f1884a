import CasePlan.Text.Basic

/-!
# Classes of code points

* `isBlank`: the white space that does not count as content in a label; `strip` removes it at both
  ends and `hasContent` asks for something else.
* `isXmlChar` and `isXmlText`: what an XML 1.0 document can carry.
* `lower` and `upper` change the case of the letters `A` to `Z` only.  They are used to recognise
  fixed words of such letters, and no other code point has one of their letters as its whole
  lower or upper form except the Kelvin sign, the dotless i and the long s, which none of those
  words could be spelled with.
-/

namespace CasePlan.Text

/-- White space of all scripts, with the separator controls 28 to 31. -/
def isBlank (c : CodePoint) : Bool :=
  let n := c.val
  (9 ≤ n && n ≤ 13) || (28 ≤ n && n ≤ 32) || n == 0x85 || n == 0xA0 || n == 0x1680 ||
    (0x2000 ≤ n && n ≤ 0x200A) || n == 0x2028 || n == 0x2029 || n == 0x202F || n == 0x205F ||
    n == 0x3000

/-- The text without blanks at its beginning and end. -/
def strip (t : Text) : Text :=
  ((t.dropWhile isBlank).reverse.dropWhile isBlank).reverse

/-- Whether some code point is not blank. -/
def hasContent (t : Text) : Bool := t.any fun c => !isBlank c

/-- Whether XML 1.0 allows the code point in a document. -/
def isXmlChar (c : CodePoint) : Bool :=
  let n := c.val
  n == 9 || n == 10 || n == 13 || (0x20 ≤ n && n ≤ 0xD7FF) || (0xE000 ≤ n && n ≤ 0xFFFD) ||
    0x10000 ≤ n

/-- Whether every code point of the text may stand in an XML document. -/
def isXmlText (t : Text) : Bool := t.all isXmlChar

/-- The letters `A` to `Z` in lower case. -/
def lower (t : Text) : Text :=
  t.map fun c => if 0x41 ≤ c.val && c.val ≤ 0x5A then CodePoint.ofNat (c.val + 32) else c

/-- The letters `a` to `z` in upper case. -/
def upper (t : Text) : Text :=
  t.map fun c => if 0x61 ≤ c.val && c.val ≤ 0x7A then CodePoint.ofNat (c.val - 32) else c

end CasePlan.Text
