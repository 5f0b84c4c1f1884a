import CasePlan.Text.Class

/-!
# Names in XML

Names of XML 1.0 (fifth edition), white space, references to characters, and the small readers that
the parts of a document share.  A reader gives what it read and the rest of the text, or nothing.
-/

namespace CasePlan.Xml

/-- White space between the parts of a tag. -/
def isSpace (c : CodePoint) : Bool := c.val == 32 || c.val == 9 || c.val == 10 || c.val == 13

/-- Code points that a name without colons may begin with. -/
def isNameStart (c : CodePoint) : Bool :=
  let n := c.val
  (0x41 ≤ n && n ≤ 0x5A) || n == 0x5F || (0x61 ≤ n && n ≤ 0x7A) || (0xC0 ≤ n && n ≤ 0xD6) ||
    (0xD8 ≤ n && n ≤ 0xF6) || (0xF8 ≤ n && n ≤ 0x2FF) || (0x370 ≤ n && n ≤ 0x37D) ||
    (0x37F ≤ n && n ≤ 0x1FFF) || (0x200C ≤ n && n ≤ 0x200D) || (0x2070 ≤ n && n ≤ 0x218F) ||
    (0x2C00 ≤ n && n ≤ 0x2FEF) || (0x3001 ≤ n && n ≤ 0xD7FF) || (0xF900 ≤ n && n ≤ 0xFDCF) ||
    (0xFDF0 ≤ n && n ≤ 0xFFFD) || (0x10000 ≤ n && n ≤ 0xEFFFF)

/-- Code points that a name without colons may go on with. -/
def isNamePart (c : CodePoint) : Bool :=
  let n := c.val
  isNameStart c || n == 0x2D || n == 0x2E || (0x30 ≤ n && n ≤ 0x39) || n == 0xB7 ||
    (0x300 ≤ n && n ≤ 0x36F) || n == 0x203F || n == 0x2040

/-- The colon, which divides a name. -/
def isColon (c : CodePoint) : Bool := c.val == 0x3A

/-- Readers of parts of a document. -/
abbrev Reader (α : Type) := Text → Option (α × Text)

/-- The rest after white space. -/
def skipSpace (t : Text) : Text := t.dropWhile isSpace

/-- The rest after white space of which there must be some. -/
def needSpace? (t : Text) : Option Text :=
  match t with
  | c :: rest => if isSpace c then some (skipSpace rest) else none
  | [] => none

/-- A name, colons included. -/
def readName : Reader Text := fun t =>
  match t with
  | c :: rest =>
    if isNameStart c || isColon c then
      let (more, rest) := rest.span fun c => isNamePart c || isColon c
      some (c :: more, rest)
    else none
  | [] => none

/-- A name that has no colon. -/
def readPlainName : Reader Text := fun t => do
  let (name, rest) ← readName t
  if name.any isColon then none
  pure (name, rest)

/-- Whether a text is a name that has no colon, with blanks around it or not. -/
def isPlainName (t : Text) : Bool :=
  match readPlainName (skipSpace t) with
  | some (_, rest) => (skipSpace rest).isEmpty
  | none => false

/-- A name token: parts of names in any order. -/
def readToken : Reader Text := fun t =>
  match t.span fun c => isNamePart c || isColon c with
  | ([], _) => none
  | (token, rest) => some (token, rest)

/-- A text between apostrophes or quotation marks, as it stands. -/
def readLiteral : Reader Text := fun t =>
  match t with
  | q :: rest =>
    if q = '"' || q = '\'' then
      let (inside, rest) := rest.span (· ≠ q)
      match rest with
      | _ :: rest => some (inside, rest)
      | [] => none
    else none
  | [] => none

/-- What stands before a mark, and the rest after the mark. -/
def readUpTo (mark : Text) : Reader Text := fun t => loop t []
where
  /-- Goes on with what was read so far, reversed. -/
  loop (t done : Text) : Option (Text × Text) :=
    if mark.isPrefixOf t then some (done.reverse, t.drop mark.length)
    else
      match t with
      | [] => none
      | c :: rest => loop rest (c :: done)

/-- The number written by digits in a base, if all of them are digits and there is at least one. -/
def digitsValue? (base : Nat) (t : Text) : Option Nat :=
  if t.isEmpty then none
  else
    t.foldlM (fun n c =>
      let d? : Option Nat :=
        if 0x30 ≤ c.val && c.val ≤ 0x39 then some (c.val - 0x30)
        else if 0x61 ≤ c.val && c.val ≤ 0x66 then some (c.val - 0x57)
        else if 0x41 ≤ c.val && c.val ≤ 0x46 then some (c.val - 0x37)
        else none
      match d? with
      | some d => if d < base then some (min (n * base + d) 0x110000) else none
      | none => none) 0

/-- The character meant by the inside of a reference that begins with a number sign. -/
def numberedCharacter? (inside : Text) : Option CodePoint :=
  let n? := match inside with
    | c :: digits => if c = 'x' then digitsValue? 16 digits else digitsValue? 10 inside
    | [] => none
  match n? with
  | some n =>
    if h : n < 0x110000 then (if Text.isXmlChar ⟨n, h⟩ then some ⟨n, h⟩ else none) else none
  | none => none

/-- The characters that every document has names for. -/
def predefined : List (Text × CodePoint) :=
  [("lt", '<'), ("gt", '>'), ("amp", '&'), ("apos", '\''), ("quot", '"')]

/-- What a reference stands for. -/
inductive Reference where
  /-- A character. -/
  | character (c : CodePoint)
  /-- An entity. -/
  | entity (name : Text)

/-- A reference after its ampersand. -/
def readReference : Reader Reference := fun t =>
  match t with
  | c :: rest =>
    if c = '#' then
      let (inside, rest) := rest.span (· ≠ CodePoint.ofChar ';')
      match numberedCharacter? inside, rest with
      | some c, _ :: rest => some (.character c, rest)
      | _, _ => none
    else
      match readName t with
      | some (name, d :: rest) =>
        if d = ';' then
          match predefined.find? (·.1 = name) with
          | some (_, c) => some (.character c, rest)
          | none => some (.entity name, rest)
        else none
      | _ => none
  | [] => none

end CasePlan.Xml
