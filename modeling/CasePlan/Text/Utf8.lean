import CasePlan.Text.Basic

/-!
# UTF-8

* `Utf8.decode?` reads bytes and reports the first place where they are not UTF-8: a byte that
  starts nothing, a sequence broken off by a byte that does not continue it, or the end of the data.
* `Utf8.decodeLossy` puts a replacement character there and goes on.
* `Utf8.encode?` writes a text and reports the first run of surrogates, which UTF-8 cannot hold.
-/

namespace CasePlan.Utf8

/-- Why bytes are not UTF-8. -/
inductive Reason where
  /-- No sequence starts with the byte. -/
  | invalidStart
  /-- A byte does not continue the sequence before it. -/
  | invalidContinuation
  /-- The data end within a sequence. -/
  | unexpectedEnd
  deriving DecidableEq, Repr

/-- Where and why decoding failed: the offset, first byte and length of the bytes at fault. -/
structure DecodeError where
  /-- Offset of the first byte at fault. -/
  position : Nat
  /-- The first byte at fault. -/
  byte : UInt8
  /-- How many bytes are at fault. -/
  length : Nat
  /-- What is wrong with them. -/
  reason : Reason
  deriving DecidableEq, Repr

/-- The wording of a reason. -/
def Reason.message : Reason → Text
  | .invalidStart => "invalid start byte"
  | .invalidContinuation => "invalid continuation byte"
  | .unexpectedEnd => "unexpected end of data"

/-- The wording of a decoding error. -/
def DecodeError.message (e : DecodeError) : Text :=
  (if e.length = 1 then
    "'utf-8' codec can't decode byte 0x" ++ Text.ofDigits 16 e.byte.toNat 2 ++ " in position " ++
      Text.ofNat e.position
  else
    "'utf-8' codec can't decode bytes in position " ++ Text.ofNat e.position ++ "-" ++
      Text.ofNat (e.position + e.length - 1))
  ++ ": " ++ e.reason.message

/-- What the first byte of a sequence says: its payload, the number of bytes that follow, and the
range of the next one. -/
structure Lead where
  /-- Bits of the code point that the first byte holds. -/
  payload : Nat
  /-- Continuation bytes that follow. -/
  count : Nat
  /-- Least next byte. -/
  low : Nat := 0x80
  /-- Greatest next byte. -/
  high : Nat := 0xBF

/-- The sequence that a byte starts. -/
def lead? (b : Nat) : Option Lead :=
  if b < 0x80 then some ⟨b, 0, 0x80, 0xBF⟩
  else if b < 0xC2 then none
  else if b < 0xE0 then some ⟨b - 0xC0, 1, 0x80, 0xBF⟩
  else if b = 0xE0 then some ⟨0, 2, 0xA0, 0xBF⟩
  else if b = 0xED then some ⟨0xD, 2, 0x80, 0x9F⟩
  else if b < 0xF0 then some ⟨b - 0xE0, 2, 0x80, 0xBF⟩
  else if b = 0xF0 then some ⟨0, 3, 0x90, 0xBF⟩
  else if b = 0xF4 then some ⟨4, 3, 0x80, 0x8F⟩
  else if b < 0xF4 then some ⟨b - 0xF0, 3, 0x80, 0xBF⟩
  else none

/-- The code point made of a payload and `count` continuation bytes, or the number of good bytes
found and the reason. -/
def continuation (low high payload : Nat) : Nat → List UInt8 → Except (Nat × Reason) Nat
  | 0, _ => .ok payload
  | _ + 1, [] => .error (0, .unexpectedEnd)
  | count + 1, b :: rest =>
    if low ≤ b.toNat ∧ b.toNat ≤ high then
      match continuation 0x80 0xBF (payload * 64 + b.toNat % 64) count rest with
      | .ok c => .ok c
      | .error (good, reason) => .error (good + 1, reason)
    else .error (0, .invalidContinuation)

/-- Loop of `decode?`: `position` is the offset of the next byte, `done` the text so far,
reversed. -/
def decodeLoop (position : Nat) (done : Text) (bytes : List UInt8) :
    Except DecodeError Text :=
  match bytes with
  | [] => .ok done.reverse
  | b :: rest =>
    match lead? b.toNat with
    | none => .error ⟨position, b, 1, .invalidStart⟩
    | some l =>
      match continuation l.low l.high l.payload l.count rest with
      | .ok c =>
        decodeLoop (position + l.count + 1) (CodePoint.ofNat c :: done) (rest.drop l.count)
      | .error (good, reason) => .error ⟨position, b, good + 1, reason⟩
termination_by bytes.length
decreasing_by simp only [List.length_cons, List.length_drop]; omega

/-- The text written by the bytes. -/
def decode? (bytes : List UInt8) : Except DecodeError Text := decodeLoop 0 [] bytes

/-- The text written by the bytes, with a replacement character for every run of bytes at fault. -/
def decodeLossy (bytes : List UInt8) : Text :=
  match bytes with
  | [] => []
  | b :: rest =>
    match lead? b.toNat with
    | none => 0xFFFD :: decodeLossy rest
    | some l =>
      match continuation l.low l.high l.payload l.count rest with
      | .ok c => CodePoint.ofNat c :: decodeLossy (rest.drop l.count)
      | .error (good, _) => 0xFFFD :: decodeLossy (rest.drop good)
termination_by bytes.length
decreasing_by all_goals simp only [List.length_cons, List.length_drop]; omega

/-- Where encoding failed: offset and code points of a run of surrogates. -/
structure EncodeError where
  /-- Offset of the first surrogate. -/
  position : Nat
  /-- The surrogates in a row. -/
  surrogates : Text
  deriving DecidableEq, Repr

/-- The wording of an encoding error. -/
def EncodeError.message (e : EncodeError) : Text :=
  (match e.surrogates with
  | [c] =>
    "'utf-8' codec can't encode character '\\u" ++ Text.ofDigits 16 c.val 4 ++ "' in position " ++
      Text.ofNat e.position
  | run =>
    "'utf-8' codec can't encode characters in position " ++ Text.ofNat e.position ++ "-" ++
      Text.ofNat (e.position + run.length - 1))
  ++ ": surrogates not allowed"

/-- Whether a code point is a surrogate. -/
def isSurrogate (c : CodePoint) : Bool := 0xD800 ≤ c.val && c.val ≤ 0xDFFF

/-- The bytes of one code point. -/
def encodeCode (c : CodePoint) : List UInt8 :=
  let n := c.val
  if n < 0x80 then [n.toUInt8]
  else if n < 0x800 then [(0xC0 + n / 64).toUInt8, (0x80 + n % 64).toUInt8]
  else if n < 0x10000 then
    [(0xE0 + n / 4096).toUInt8, (0x80 + n / 64 % 64).toUInt8, (0x80 + n % 64).toUInt8]
  else
    [(0xF0 + n / 262144).toUInt8, (0x80 + n / 4096 % 64).toUInt8, (0x80 + n / 64 % 64).toUInt8,
      (0x80 + n % 64).toUInt8]

/-- The first run of surrogates in a text. -/
def surrogateRun? (t : Text) : Option EncodeError :=
  let before := t.takeWhile fun c => !isSurrogate c
  match (t.drop before.length).takeWhile isSurrogate with
  | [] => none
  | run => some ⟨before.length, run⟩

/-- The bytes of a text without surrogates. -/
def encode? (t : Text) : Except EncodeError (List UInt8) :=
  match surrogateRun? t with
  | some e => .error e
  | none => .ok (t.flatMap encodeCode)

end CasePlan.Utf8
