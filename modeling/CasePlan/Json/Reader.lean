import CasePlan.Json.Basic

/-!
# Reading JSON texts

`Json.read` accepts RFC 8259 with these additions: `NaN`, `Infinity` and `-Infinity` are numbers,
a surrogate may be escaped on its own, and of several members with one name the last one counts, at
the first one's place.  White space is blank, tab, line feed and carriage return; control
characters may not stand in a text.  There is no bound on the digits of an integer or on how deep
values are nested: the limits that a runtime sets on both are left out.

The reader stops at the first fault and reports it with its offset.  Each step returns the rest of
the text, and a fault is first located by the length of the rest, which `read` turns into an
offset.
-/

namespace CasePlan.Json

/-- What can be wrong with a JSON text. -/
inductive FaultKind where
  /-- No value starts here. -/
  | value
  /-- A member does not start with its name. -/
  | memberName
  /-- No colon after a name. -/
  | colon
  /-- No comma between two items. -/
  | comma
  /-- A text is not closed. -/
  | unterminated
  /-- A control character stands in a text. -/
  | control
  /-- A backslash and a character that is no escape. -/
  | escape
  /-- Fewer than four hexadecimal digits after a backslash and `u`. -/
  | unicodeEscape
  /-- Something follows the value. -/
  | extra
  /-- The text starts with a byte order mark. -/
  | byteOrderMark
  deriving DecidableEq, Repr

/-- The wording of a fault, without its place. -/
def FaultKind.message : FaultKind → Text
  | .value => "Expecting value"
  | .memberName => "Expecting property name enclosed in double quotes"
  | .colon => "Expecting ':' delimiter"
  | .comma => "Expecting ',' delimiter"
  | .unterminated => "Unterminated string starting at"
  | .control => "Invalid control character at"
  | .escape => "Invalid \\escape"
  | .unicodeEscape => "Invalid \\uXXXX escape"
  | .extra => "Extra data"
  | .byteOrderMark => "Unexpected UTF-8 BOM (decode using utf-8-sig)"

/-- A fault located by the number of code points from it to the end. -/
structure Trouble where
  /-- What is wrong. -/
  kind : FaultKind
  /-- The code points from the fault to the end of the text. -/
  left : Nat
  deriving DecidableEq, Repr

/-- A fault with its place in the text. -/
structure Fault where
  /-- What is wrong. -/
  kind : FaultKind
  /-- Offset in code points. -/
  offset : Nat
  /-- Line, counted from one. -/
  line : Nat
  /-- Column, counted from one. -/
  column : Nat
  deriving DecidableEq, Repr

/-- The wording of a fault with its place. -/
def Fault.message (f : Fault) : Text :=
  f.kind.message ++ ": line " ++ Text.ofNat f.line ++ " column " ++ Text.ofNat f.column ++
    " (char " ++ Text.ofNat f.offset ++ ")"

/-- Locates a fault in the whole text. -/
def Trouble.locate (t : Trouble) (whole : Text) : Fault :=
  let offset := whole.length - t.left
  let before := whole.take offset
  let line := before.count .lineFeed + 1
  { kind := t.kind
    offset := offset
    line := line
    column := (before.reverse.takeWhile (· ≠ .lineFeed)).length + 1 }

/-- Steps of the reader. -/
abbrev Step (α : Type) := Except Trouble (α × Text)

/-- Stops at a fault in front of the rest. -/
def stop {α : Type} (kind : FaultKind) (rest : Text) : Step α := .error ⟨kind, rest.length⟩

/-- White space between the parts of a JSON text. -/
def isSpace (c : CodePoint) : Bool := c = ' ' ∨ c = '\t' ∨ c = '\n' ∨ c = '\r'

/-- The rest after white space. -/
def skip (t : Text) : Text := t.dropWhile isSpace

/-! ## Texts -/

/-- The worth of a hexadecimal digit in either case. -/
def hexDigit? (c : CodePoint) : Option Nat :=
  if 0x30 ≤ c.val ∧ c.val ≤ 0x39 then some (c.val - 0x30)
  else if 0x61 ≤ c.val ∧ c.val ≤ 0x66 then some (c.val - 0x57)
  else if 0x41 ≤ c.val ∧ c.val ≤ 0x46 then some (c.val - 0x37)
  else none

/-- The number written by four hexadecimal digits. -/
def hex4? (a b c d : CodePoint) : Option Nat := do
  let a ← hexDigit? a
  let b ← hexDigit? b
  let c ← hexDigit? c
  let d ← hexDigit? d
  pure (a * 4096 + b * 256 + c * 16 + d)

/-- The code point meant by a one-letter escape. -/
def simpleEscape? (c : CodePoint) : Option CodePoint :=
  if c = '"' then some '"'
  else if c = '\\' then some '\\'
  else if c = '/' then some '/'
  else if c = 'b' then some 8
  else if c = 'f' then some 12
  else if c = 'n' then some '\n'
  else if c = 'r' then some '\r'
  else if c = 't' then some '\t'
  else none

/-- A pair of surrogates as one code point. -/
def joinSurrogates (high low : Nat) : CodePoint :=
  CodePoint.ofNat (0x10000 + (high - 0xD800) * 0x400 + (low - 0xDC00))

/-- What follows a high surrogate: the escape of a low one joins it, a broken escape is a fault,
anything else leaves it alone.  An escape that ends the whole text is not looked at. -/
inductive Partner where
  /-- A low surrogate; the rest follows its escape. -/
  | low (value : Nat)
  /-- Nothing that could join. -/
  | absent
  /-- An escape without four hexadecimal digits. -/
  | broken

/-- Looks for the partner of a high surrogate. -/
def partner : Text → Partner
  | s :: u :: a :: b :: c :: d :: _ :: _ =>
    if s = '\\' ∧ u = 'u' then
      match hex4? a b c d with
      | none => .broken
      | some n => if 0xDC00 ≤ n ∧ n ≤ 0xDFFF then .low n else .absent
    else .absent
  | _ => .absent

/-- The inside of a text up to its closing mark; `opening` is the number of code points from the
opening mark to the end, `done` the text so far, reversed. -/
def readTextLoop (opening : Nat) (done t : Text) : Step Text :=
  match t with
  | [] => .error ⟨.unterminated, opening⟩
  | q :: rest =>
    if q = '"' then .ok (done.reverse, rest)
    else if q = '\\' then
      match rest with
      | [] => .error ⟨.unterminated, opening⟩
      | e :: tail =>
        if e = 'u' then
          match tail with
          | a :: b :: c :: d :: more =>
            if more.isEmpty then stop .unicodeEscape rest
            else
              match hex4? a b c d with
              | none => stop .unicodeEscape rest
              | some n =>
                if 0xD800 ≤ n ∧ n ≤ 0xDBFF then
                  match partner more with
                  | .low l => readTextLoop opening (joinSurrogates n l :: done) (more.drop 6)
                  | .absent => readTextLoop opening (CodePoint.ofNat n :: done) more
                  | .broken => stop .unicodeEscape (more.drop 1)
                else readTextLoop opening (CodePoint.ofNat n :: done) more
          | _ => stop .unicodeEscape rest
        else
          match simpleEscape? e with
          | some c => readTextLoop opening (c :: done) tail
          | none => stop .escape t
    else if q.val < 0x20 then stop .control t
    else readTextLoop opening (q :: done) rest
termination_by t.length
decreasing_by
  all_goals simp only [List.length_cons, List.length_drop]; omega

/-- A text after its opening mark. -/
def readText (t : Text) : Step Text := readTextLoop (t.length + 1) [] t

/-! ## Numbers -/

/-- Whether a code point is one of the digits `0` to `9`. -/
def isDigit (c : CodePoint) : Bool := 0x30 ≤ c.val && c.val ≤ 0x39

/-- The number written by digits. -/
def digitsValue (digits : Text) : Nat := digits.foldl (fun n c => n * 10 + (c.val - 0x30)) 0

/-- The digits at the beginning of a text and the rest. -/
def digits (t : Text) : Text × Text := t.span isDigit

/-- The digits before the point: one zero, or digits that do not start with zero. -/
def wholePart? (t : Text) : Option (Text × Text) :=
  match t with
  | c :: rest =>
    if c = '0' then some ([c], rest) else if isDigit c then some (digits t) else none
  | [] => none

/-- A point and the digits after it, if there is at least one. -/
def fraction? (t : Text) : Option (Text × Text) :=
  match t with
  | p :: c :: rest => if p = '.' ∧ isDigit c then some (digits (c :: rest)) else none
  | _ => none

/-- A power of ten, if at least one digit follows the letter and the sign. -/
def exponent? (t : Text) : Option (Int × Text) :=
  match t with
  | e :: rest =>
    if e = 'e' ∨ e = 'E' then
      let (negative, unsigned) := match rest with
        | s :: more =>
          if s = '-' then (true, more) else if s = '+' then (false, more) else (false, rest)
        | [] => (false, rest)
      match digits unsigned with
      | ([], _) => none
      | (ds, more) =>
        let n : Int := digitsValue ds
        some (if negative then -n else n, more)
    else none
  | [] => none

/-- A number without its sign. -/
def readNumber? (negative : Bool) (t : Text) : Option (Json × Text) := do
  let (whole, rest) ← wholePart? t
  match fraction? rest, exponent? ((fraction? rest).elim rest (·.2)) with
  | none, none =>
    let n : Int := digitsValue whole
    pure (.int (if negative then -n else n), rest)
  | some (places, rest'), none =>
    let digits := digitsValue (whole ++ places)
    pure (.float (Decimal.toFloat negative digits (-(places.length : Int))), rest')
  | none, some (power, rest') =>
    pure (.float (Decimal.toFloat negative (digitsValue whole) power), rest')
  | some (places, _), some (power, rest') =>
    pure (.float (Decimal.toFloat negative (digitsValue (whole ++ places)) (power - places.length)),
      rest')

/-! ## Values -/

/-- The values written by words, with the words. -/
def words : List (Text × Json) :=
  [("null", .null), ("true", .bool true), ("false", .bool false), ("NaN", .float (0.0 / 0.0)),
    ("Infinity", .float (1.0 / 0.0)), ("-Infinity", .float (-1.0 / 0.0))]

/-- A word or a number. -/
def readScalar (t : Text) : Step Json :=
  match words.findSome? fun (word, value) => (Text.after? word t).map (value, ·) with
  | some (value, rest) => .ok (value, rest)
  | none =>
    let (negative, unsigned) := match t with
      | c :: rest => if c = '-' then (true, rest) else (false, t)
      | [] => (false, t)
    match readNumber? negative unsigned with
    | some step => .ok step
    | none => stop .value t

mutual

/-- A value at the beginning of a text; `fuel` bounds the depth and the number of items. -/
def readValue (fuel : Nat) (t : Text) : Step Json :=
  match fuel with
  | 0 => stop .value t
  | fuel + 1 =>
    match t with
    | c :: rest =>
      if c = '"' then (readText rest).map fun (s, rest) => (.str s, rest)
      else if c = '\x7b' then
        match skip rest with
        | d :: more =>
          if d = '\x7d' then .ok (.obj [], more)
          else (readMembers fuel [] (d :: more)).map fun (members, rest) => (.obj members, rest)
        | [] => stop .memberName []
      else if c = '[' then
        match skip rest with
        | d :: more =>
          if d = ']' then .ok (.arr [], more)
          else (readItems fuel [] (d :: more)).map fun (items, rest) => (.arr items, rest)
        | [] => stop .value []
      else readScalar t
    | [] => stop .value []

/-- The items of an array up to its bracket; `done` are those so far, reversed. -/
def readItems (fuel : Nat) (done : List Json) (t : Text) : Step (List Json) :=
  match fuel with
  | 0 => stop .value t
  | fuel + 1 =>
    match readValue fuel t with
    | .error e => .error e
    | .ok (x, rest) =>
      match skip rest with
      | c :: more =>
        if c = ']' then .ok ((x :: done).reverse, more)
        else if c = ',' then readItems fuel (x :: done) (skip more)
        else stop .comma (c :: more)
      | [] => stop .comma []

/-- The members of an object up to its brace; `done` are those so far, as a table. -/
def readMembers (fuel : Nat) (done : List (Text × Json)) (t : Text) : Step (List (Text × Json)) :=
  match fuel with
  | 0 => stop .value t
  | fuel + 1 =>
    match t with
    | q :: rest =>
      if q = '"' then
        match readText rest with
        | .error e => .error e
        | .ok (name, rest) =>
          match skip rest with
          | c :: more =>
            if c = ':' then
              match readValue fuel (skip more) with
              | .error e => .error e
              | .ok (x, rest) =>
                match skip rest with
                | d :: more =>
                  if d = '\x7d' then .ok (Table.insert name x done, more)
                  else if d = ',' then readMembers fuel (Table.insert name x done) (skip more)
                  else stop .comma (d :: more)
                | [] => stop .comma []
            else stop .colon (c :: more)
          | [] => stop .colon []
      else stop .memberName t
    | [] => stop .memberName []

end

/-- The value of a whole JSON text. -/
def read (t : Text) : Except Fault Json :=
  let result : Except Trouble Json :=
    if t.head? = some 0xFEFF then .error ⟨.byteOrderMark, t.length⟩
    else
      match readValue (2 * t.length + 2) (skip t) with
      | .error e => .error e
      | .ok (value, rest) =>
        match skip rest with
        | [] => .ok value
        | more => .error ⟨.extra, more.length⟩
  result.mapError (·.locate t)

end CasePlan.Json
