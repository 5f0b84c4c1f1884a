import CasePlan.Text.Utf8
import CasePlan.Xml.Name

/-!
# Encodings of documents

A document given as bytes is UTF-16 if it begins with a byte order mark or shows two-byte
characters, otherwise it has the encoding that its first line declares, which is UTF-8 if it
declares none.  Five encodings are read: UTF-8, UTF-16, Latin-1, ASCII and windows-1252.  A document
that declares another counts as unreadable here, although XML libraries may know more of them.

`decode?` gives the text of the document without byte order mark, `normalizeLines` its text with
every line ended by a line feed alone.
-/

namespace CasePlan.Xml

/-- The encodings that documents are read in. -/
inductive Encoding where
  /-- UTF-8 -/
  | utf8
  /-- UTF-16, the high byte of each unit last. -/
  | utf16Little
  /-- UTF-16, the high byte of each unit first. -/
  | utf16Big
  /-- One byte for each of the first 256 code points. -/
  | latin1
  /-- One byte for each of the first 128 code points. -/
  | ascii
  /-- One byte for each character of Western European writing. -/
  | windows1252
  deriving DecidableEq, Repr

/-- The names of encodings, in lower case. -/
def encodingNames : List (Text × Encoding) :=
  [("utf-8", .utf8), ("utf8", .utf8), ("iso-8859-1", .latin1), ("iso8859-1", .latin1),
    ("iso_8859-1", .latin1), ("iso-latin-1", .latin1), ("latin1", .latin1), ("latin-1", .latin1),
    ("l1", .latin1), ("cp819", .latin1), ("us-ascii", .ascii), ("ascii", .ascii),
    ("iso646-us", .ascii), ("windows-1252", .windows1252), ("cp1252", .windows1252)]

/-- The characters 128 to 159 of the Western European code page; zero where there is none. -/
def windows1252Controls : List Nat :=
  [0x20AC, 0, 0x201A, 0x0192, 0x201E, 0x2026, 0x2020, 0x2021, 0x02C6, 0x2030, 0x0160, 0x2039,
    0x0152, 0, 0x017D, 0, 0, 0x2018, 0x2019, 0x201C, 0x201D, 0x2022, 0x2013, 0x2014, 0x02DC,
    0x2122, 0x0161, 0x203A, 0x0153, 0, 0x017E, 0x0178]

/-- The character of a byte in the Western European code page. -/
def windows1252Code? (b : UInt8) : Option CodePoint :=
  let n := b.toNat
  if 0x80 ≤ n ∧ n ≤ 0x9F then
    match windows1252Controls[n - 0x80]? with
    | some (k + 1) => some (CodePoint.ofNat (k + 1))
    | _ => none
  else some (CodePoint.ofNat n)

/-- The 16-bit units of bytes; an odd byte at the end is nothing. -/
def units? (bigEndian : Bool) (done : List Nat) : List UInt8 → Option (List Nat)
  | a :: b :: rest =>
    let n := if bigEndian then a.toNat * 256 + b.toNat else b.toNat * 256 + a.toNat
    units? bigEndian (n :: done) rest
  | [] => some done.reverse
  | [_] => none

/-- The text of 16-bit units; a surrogate alone is nothing. -/
def ofUnits? (done : Text) : List Nat → Option Text
  | [] => some done.reverse
  | [n] => if 0xD800 ≤ n ∧ n ≤ 0xDFFF then none else some (CodePoint.ofNat n :: done).reverse
  | n :: m :: rest =>
    if 0xD800 ≤ n ∧ n ≤ 0xDBFF then
      if 0xDC00 ≤ m ∧ m ≤ 0xDFFF then
        ofUnits? (CodePoint.ofNat (0x10000 + (n - 0xD800) * 0x400 + (m - 0xDC00)) :: done) rest
      else none
    else if 0xDC00 ≤ n ∧ n ≤ 0xDFFF then none
    else ofUnits? (CodePoint.ofNat n :: done) (m :: rest)

/-- The text of bytes in an encoding. -/
def decodeAs? (encoding : Encoding) (bytes : List UInt8) : Option Text :=
  match encoding with
  | .utf8 => (Utf8.decode? bytes).toOption
  | .utf16Little => (units? false [] bytes).bind (ofUnits? [])
  | .utf16Big => (units? true [] bytes).bind (ofUnits? [])
  | .latin1 => some (bytes.map fun b => CodePoint.ofNat b.toNat)
  | .ascii =>
    if bytes.all (· < 0x80) then some (bytes.map fun b => CodePoint.ofNat b.toNat) else none
  | .windows1252 => bytes.mapM windows1252Code?

/-- The value of an item of the first line, such as `encoding="UTF-8"`, at the beginning of a
text. -/
def readItem (name : Text) : Reader Text := fun t => do
  let rest ← Text.after? name t
  match skipSpace rest with
  | e :: rest => if e = '=' then readLiteral (skipSpace rest) else none
  | [] => none

/-- The first line of a document: what it declares as version, encoding and standalone. -/
structure Declaration where
  /-- The version. -/
  version : Text
  /-- The encoding. -/
  encoding : Option Text := none
  /-- Whether the document stands alone. -/
  standalone : Option Text := none

/-- An item that may be there, after white space. -/
def readOptionalItem (name t : Text) : Option (Option Text × Text) :=
  match needSpace? t with
  | none => some (none, t)
  | some after =>
    if name.isPrefixOf after then (readItem name after).map fun (v, rest) => (some v, rest)
    else some (none, t)

/-- The declaration at the beginning of a document after `<?xml` and white space. -/
def readDeclaration : Reader Declaration := fun t => do
  let (version, rest) ← readItem "version" t
  let (encoding, rest) ← readOptionalItem "encoding" rest
  let (standalone, rest) ← readOptionalItem "standalone" rest
  let rest ← Text.after? "?>" (skipSpace rest)
  pure (⟨version, encoding, standalone⟩, rest)

/-- Whether a text begins with a declaration. -/
def afterDeclarationMark? (t : Text) : Option Text :=
  (Text.after? "<?xml" t).bind needSpace?

/-- The encoding of bytes that begin with a declaration, or show none. -/
def declaredEncoding? (bytes : List UInt8) : Option Encoding :=
  let front : Text := (bytes.take 200).map fun b => CodePoint.ofNat b.toNat
  match (afterDeclarationMark? front).bind readDeclaration with
  | some (d, _) =>
    match d.encoding with
    | some name => (encodingNames.find? (·.1 = name.lower)).map (·.2)
    | none => some .utf8
  | none => some .utf8

/-- The encoding of a document and the bytes after its byte order mark. -/
def detect? (bytes : List UInt8) : Option (Encoding × List UInt8) :=
  match bytes with
  | 0xEF :: 0xBB :: 0xBF :: rest => some (.utf8, rest)
  | 0xFF :: 0xFE :: rest => some (.utf16Little, rest)
  | 0xFE :: 0xFF :: rest => some (.utf16Big, rest)
  | 0x3C :: 0x00 :: 0x3F :: 0x00 :: _ => some (.utf16Little, bytes)
  | 0x00 :: 0x3C :: 0x00 :: 0x3F :: _ => some (.utf16Big, bytes)
  | _ => (declaredEncoding? bytes).map (·, bytes)

/-- The text of a document given as bytes. -/
def decode? (bytes : List UInt8) : Option Text := do
  let (encoding, rest) ← detect? bytes
  decodeAs? encoding rest

/-- Ends every line by a line feed alone; `done` is the text so far, reversed. -/
def normalizeLoop (done : Text) : Text → Text
  | [] => done.reverse
  | c :: rest =>
    if c = .carriageReturn then
      match rest with
      | d :: _ =>
        if d = .lineFeed then normalizeLoop done rest else normalizeLoop (.lineFeed :: done) rest
      | [] => normalizeLoop (.lineFeed :: done) rest
    else normalizeLoop (c :: done) rest

/-- The text with every line ended by a line feed alone. -/
def normalizeLines (t : Text) : Text := normalizeLoop [] t

end CasePlan.Xml
