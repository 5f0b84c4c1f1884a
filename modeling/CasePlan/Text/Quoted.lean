import CasePlan.Text.Printable

/-!
# Quoted texts

The quoted form of a text in a message: between apostrophes, or between quotation marks when the
text holds an apostrophe and no quotation mark.  The mark in use and the backslash are written
after a backslash; tab, line feed and carriage return have escapes of their own; whatever else is
not printable is written by its number in two, four or eight hexadecimal digits.
-/

namespace CasePlan.Text

/-- One code point of a text quoted with `mark`. -/
def quotedCode (mark c : CodePoint) : Text :=
  if c = mark ∨ c = '\\' then ['\\', c]
  else if c = '\t' then "\\t"
  else if c = '\n' then "\\n"
  else if c = '\r' then "\\r"
  else if isPrintable c then [c]
  else if c.val < 0x100 then "\\x" ++ ofDigits 16 c.val 2
  else if c.val < 0x10000 then "\\u" ++ ofDigits 16 c.val 4
  else "\\U" ++ ofDigits 16 c.val 8

/-- The quoted form of a text. -/
def quoted (t : Text) : Text :=
  let mark : CodePoint :=
    if CodePoint.ofChar '\'' ∈ t ∧ CodePoint.ofChar '"' ∉ t then '"' else '\''
  mark :: t.flatMap (quotedCode mark) ++ [mark]

end CasePlan.Text
