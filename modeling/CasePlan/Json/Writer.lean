import CasePlan.Json.Basic
import CasePlan.Text.Utf8

/-!
# Writing JSON texts

A value is written in printable ASCII: quotation mark and backslash after a backslash, the five
usual controls by a letter, everything else outside `' '` to `'~'` by the four hexadecimal digits
of its UTF-16 units.  `write` puts no white space anywhere, `writeIndented` a line for each item.
-/

namespace CasePlan.Json

/-- The escape of one UTF-16 unit. -/
def unitEscape (n : Nat) : Text := "\\u" ++ Text.ofDigits 16 n 4

/-- One code point inside a written text. -/
def writeCode (c : CodePoint) : Text :=
  if c = '"' then "\\\""
  else if c = '\\' then "\\\\"
  else if c = '\n' then "\\n"
  else if c = '\r' then "\\r"
  else if c = '\t' then "\\t"
  else if c.val = 12 then "\\f"
  else if c.val = 8 then "\\b"
  else if 0x20 ≤ c.val ∧ c.val ≤ 0x7E then [c]
  else if c.val < 0x10000 then unitEscape c.val
  else
    unitEscape (0xD800 + (c.val - 0x10000) / 0x400) ++
      unitEscape (0xDC00 + (c.val - 0x10000) % 0x400)

/-- A text between quotation marks. -/
def writeText (t : Text) : Text := .quotationMark :: t.flatMap writeCode ++ [.quotationMark]

/-- A double: its usual text, or one of three words. -/
def writeFloat (x : Float) : Text :=
  if x.isNaN then "NaN"
  else if x.isInf then (if x < 0.0 then "-Infinity" else "Infinity")
  else Decimal.ofFloat x

/-- What is written between the parts of arrays and objects. -/
structure Style where
  /-- Between two items, at a given depth. -/
  between : Nat → Text
  /-- After the opening bracket and before the closing one, at the depth of the text there. -/
  edge : Nat → Text
  /-- Between a name and its value. -/
  colon : Text

/-- No white space. -/
def Style.compact : Style := ⟨fun _ => ",", fun _ => [], ":"⟩

/-- A line break and two blanks for each level. -/
def lineBreak (depth : Nat) : Text := '\n' :: List.replicate (2 * depth) ' '

/-- Each item on a line of its own. -/
def Style.indented : Style := ⟨fun depth => "," ++ lineBreak depth, lineBreak, ": "⟩

mutual

/-- A value in a style at a depth. -/
def writeAt (style : Style) (depth : Nat) : Json → Text
  | null => "null"
  | bool true => "true"
  | bool false => "false"
  | int n => Text.ofInt n
  | float x => writeFloat x
  | str t => writeText t
  | arr [] => "[]"
  | arr items =>
    "[" ++ style.edge (depth + 1) ++ writeItems style (depth + 1) items ++ style.edge depth ++ "]"
  | obj [] => "\x7b\x7d"
  | obj members =>
    "\x7b" ++ style.edge (depth + 1) ++ writeMembers style (depth + 1) members ++
      style.edge depth ++ "\x7d"

/-- The items of an array. -/
def writeItems (style : Style) (depth : Nat) : List Json → Text
  | [] => []
  | [x] => writeAt style depth x
  | x :: rest => writeAt style depth x ++ style.between depth ++ writeItems style depth rest

/-- The members of an object. -/
def writeMembers (style : Style) (depth : Nat) : List (Text × Json) → Text
  | [] => []
  | [(name, x)] => writeText name ++ style.colon ++ writeAt style depth x
  | (name, x) :: rest =>
    writeText name ++ style.colon ++ writeAt style depth x ++ style.between depth ++
      writeMembers style depth rest

end

/-- A value without white space. -/
def write (value : Json) : Text := writeAt .compact 0 value

/-- A value with a line for each item. -/
def writeIndented (value : Json) : Text := writeAt .indented 0 value

end CasePlan.Json
