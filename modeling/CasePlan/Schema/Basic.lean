import CasePlan.Json.Basic
import CasePlan.Text.Number

/-!
# Checking data against a shape

A checked reading of a JSON value either succeeds or lists every place where the value has another
shape, in the order of the fields.  Each issue names the place by member names and item numbers.

`Checked` collects the issues of independent parts with `<*>`; `field`, `items`, `text`, `choice`
and the others read the parts.
-/

namespace CasePlan.Schema

/-- What is wrong at a place. -/
inductive Cause where
  /-- A required member is absent. -/
  | missing
  /-- Not a text. -/
  | text
  /-- A text with surrogates where its characters count. -/
  | brokenText
  /-- A text with fewer than the least number of characters. -/
  | tooShortText
  /-- Not an array. -/
  | array
  /-- An array without items. -/
  | emptyArray
  /-- Not an object. -/
  | object
  /-- Not an object, where a record of the given name is read. -/
  | record (name : Text)
  /-- Not an object, where its members would be looked up. -/
  | members
  /-- None of the words that are allowed. -/
  | word (allowed : List Text)
  /-- No member says which kind of record this is. -/
  | noTag
  /-- The member that says which kind of record this is has none of the allowed words. -/
  | tag (found : Text) (allowed : List Text)
  /-- Not a number. -/
  | number
  /-- A text that is not a number. -/
  | numberText
  /-- Not a whole number. -/
  | whole
  /-- A text that is not a whole number. -/
  | wholeText
  /-- A number with a fraction. -/
  | fraction
  /-- A number that is not finite. -/
  | infinite
  /-- A number that is not above zero. -/
  | notPositive
  /-- Neither true nor false. -/
  | truth
  /-- A word or number that means neither true nor false. -/
  | truthWord
  /-- Text that is no JSON. -/
  | json
  deriving DecidableEq, Repr

/-- Words in apostrophes, the last one after `or`. -/
def alternatives : List Text → Text
  | [] => []
  | [w] => "'" ++ w ++ "'"
  | [v, w] => "'" ++ v ++ "' or '" ++ w ++ "'"
  | w :: rest => "'" ++ w ++ "', " ++ alternatives rest

/-- The short name of a cause. -/
def Cause.name : Cause → Text
  | .missing => "missing"
  | .text => "string_type"
  | .brokenText => "string_unicode"
  | .tooShortText => "string_too_short"
  | .array => "tuple_type"
  | .emptyArray => "too_short"
  | .object => "dict_type"
  | .record _ => "model_type"
  | .members => "model_attributes_type"
  | .word _ => "enum"
  | .noTag => "union_tag_not_found"
  | .tag _ _ => "union_tag_invalid"
  | .number => "float_type"
  | .numberText => "float_parsing"
  | .whole => "int_type"
  | .wholeText => "int_parsing"
  | .fraction => "int_from_float"
  | .infinite => "finite_number"
  | .notPositive => "greater_than"
  | .truth => "bool_type"
  | .truthWord => "bool_parsing"
  | .json => "json_invalid"

/-- The wording of a cause. -/
def Cause.message : Cause → Text
  | .missing => "Field required"
  | .text => "Input should be a valid string"
  | .brokenText =>
    "Input should be a valid string, unable to parse raw data as a unicode string"
  | .tooShortText => "String should have at least 1 character"
  | .array => "Input should be a valid tuple"
  | .emptyArray => "Tuple should have at least 1 item after validation, not 0"
  | .object => "Input should be a valid dictionary"
  | .record name => "Input should be a valid dictionary or instance of " ++ name
  | .members => "Input should be a valid dictionary or object to extract fields from"
  | .word allowed => "Input should be " ++ alternatives allowed
  | .noTag => "Unable to extract tag using discriminator 'type'"
  | .tag found allowed =>
    "Input tag '" ++ found ++
      "' found using 'type' does not match any of the expected tags: " ++
      Text.join ", " (allowed.map fun (w : Text) => ("'" ++ w ++ "'" : Text))
  | .number => "Input should be a valid number"
  | .numberText => "Input should be a valid number, unable to parse string as a number"
  | .whole => "Input should be a valid integer"
  | .wholeText => "Input should be a valid integer, unable to parse string as an integer"
  | .fraction => "Input should be a valid integer, got a number with a fractional part"
  | .infinite => "Input should be a finite number"
  | .notPositive => "Input should be greater than 0"
  | .truth => "Input should be a valid boolean"
  | .truthWord => "Input should be a valid boolean, unable to interpret input"
  | .json => "JSON decode error"

/-- A cause at a place: member names and item numbers from the outside in. -/
structure Issue where
  /-- The place. -/
  path : List Text
  /-- What is wrong there. -/
  cause : Cause
  deriving DecidableEq, Repr

/-- The place in one text, its parts joined by points. -/
def Issue.location (i : Issue) : Text := Text.join "." i.path

/-- A value, or all the issues found in reading it. -/
inductive Checked (α : Type) where
  /-- The value read. -/
  | good (value : α)
  /-- The issues, in order. -/
  | bad (issues : List Issue)

namespace Checked

/-- Applies a function to the value. -/
def map {α β : Type} (f : α → β) : Checked α → Checked β
  | good a => good (f a)
  | bad issues => bad issues

/-- Applies a function that was read to an argument that was read; issues of both are kept. -/
def seq {α β : Type} (f : Checked (α → β)) (a : Unit → Checked α) : Checked β :=
  match f, a () with
  | good f, good a => good (f a)
  | good _, bad issues => bad issues
  | bad issues, good _ => bad issues
  | bad first, bad second => bad (first ++ second)

instance : Applicative Checked where
  map := map
  pure := good
  seq := seq

/-- Goes on with a value; issues end the reading. -/
def andThen {α β : Type} (a : Checked α) (f : α → Checked β) : Checked β :=
  match a with
  | good a => f a
  | bad issues => bad issues

/-- Puts the place of all issues inside a member or item. -/
def inside {α : Type} (step : Text) : Checked α → Checked α
  | good a => good a
  | bad issues => bad (issues.map fun i => { i with path := step :: i.path })

/-- A single issue at the value itself. -/
def fault {α : Type} (cause : Cause) : Checked α := bad [⟨[], cause⟩]

/-- The outcome of the reading. -/
def toExcept {α : Type} : Checked α → Except (List Issue) α
  | good a => .ok a
  | bad issues => .error issues

end Checked

open Checked

/-! ## Parts -/

/-- A text. -/
def text : Json → Checked Text
  | .str t => good t
  | _ => fault .text

/-- A text with at least one character, none of them a surrogate. -/
def filledText : Json → Checked Text
  | .str t =>
    if t.any fun c => 0xD800 ≤ c.val && c.val ≤ 0xDFFF then fault .brokenText
    else if t.isEmpty then fault .tooShortText
    else good t
  | _ => fault .text

/-- One of some words, and what it stands for. -/
def choice {α : Type} (words : List (Text × α)) : Json → Checked α
  | .str t =>
    match Table.get? t words with
    | some a => good a
    | none => fault (.word (words.map (·.1)))
  | _ => fault (.word (words.map (·.1)))

/-- `null` or something else. -/
def optional {α : Type} (read : Json → Checked α) : Json → Checked (Option α)
  | .null => good none
  | value => (read value).map some

/-- Reads items one by one, with their numbers. -/
def itemsFrom {α : Type} (read : Json → Checked α) (number : Nat) :
    List Json → List α × List Issue
  | [] => ([], [])
  | x :: rest =>
    let (values, issues) := itemsFrom read (number + 1) rest
    match (read x).inside (Text.ofNat number) with
    | good a => (a :: values, issues)
    | bad found => (values, found ++ issues)

/-- The items of an array. -/
def items {α : Type} (read : Json → Checked α) : Json → Checked (List α)
  | .arr xs =>
    match itemsFrom read 0 xs with
    | (values, []) => good values
    | (_, issues) => bad issues
  | _ => fault .array

/-- The items of an array of which at least one must be good. -/
def someItems {α : Type} (read : Json → Checked α) : Json → Checked (List α)
  | .arr xs =>
    let (values, issues) := itemsFrom read 0 xs
    let issues := if values.isEmpty then issues ++ [⟨[], .emptyArray⟩] else issues
    if issues.isEmpty then good values else bad issues
  | _ => fault .array

/-- A whole number.  Truth values, numbers without fraction and texts of digits are taken for
one. -/
def whole : Json → Checked Int
  | .int n => good n
  | .bool b => good (if b then 1 else 0)
  | .float x =>
    match Decimal.ofFloat? x with
    | none => fault .infinite
    | some b => if b.isWhole then good b.truncate else fault .fraction
  | .str t =>
    let t := t.strip
    let (negative, digits) : Bool × Text := match t with
      | c :: rest => if c = '-' then (true, rest) else if c = '+' then (false, rest) else (false, t)
      | [] => (false, t)
    if digits.isEmpty || digits.any fun c => !(0x30 ≤ c.val && c.val ≤ 0x39) then fault .wholeText
    else
      let n : Int := digits.foldl (fun n c => n * 10 + (c.val - 0x30)) 0
      good (if negative then -n else n)
  | _ => fault .whole

/-- The spelling of a number in a text: without white space around it or, if it has low lines,
without them.  No low line may stand at an end or next to another one. -/
def numberSpelling? (t : Text) : Option Text :=
  let low := CodePoint.ofChar '_'
  if low ∉ t then some t.trim
  else if t.head? = some low ∨ t.getLast? = some low ∨ Text.contains [low, low] t then none
  else some (t.filter (· ≠ low))

/-- A number.  Truth values and texts are taken for one; in a text, single low lines do not
count. -/
def number : Json → Checked Float
  | .float x => good x
  | .bool b => good (if b then 1.0 else 0.0)
  | .int n =>
    let x := Decimal.ofInt n
    if x.isInf then fault .number else good x
  | .str t =>
    match (numberSpelling? t).bind Text.readPlainFloat? with
    | some x => good x
    | none => fault .numberText
  | _ => fault .number

/-- The words for true and false, in lower case. -/
def truthWords : List (Text × Bool) :=
  [("0", false), ("off", false), ("f", false), ("false", false), ("n", false), ("no", false),
    ("1", true), ("on", true), ("t", true), ("true", true), ("y", true), ("yes", true)]

/-- True or false; the numbers zero and one and some words are taken for them. -/
def truth : Json → Checked Bool
  | .bool b => good b
  | .int 0 => good false
  | .int 1 => good true
  | .int _ => fault .truthWord
  | .float x =>
    if x == 0.0 then good false else if x == 1.0 then good true
    else
      match Decimal.ofFloat? x with
      | some b => if b.isWhole then fault .truthWord else fault .truth
      | none => fault .truth
  | .str t =>
    match Table.get? t.lower truthWords with
    | some b => good b
    | none => fault .truthWord
  | _ => fault .truth

/-! ## Members -/

/-- The first of some names that an object has, with its value. -/
def lookUp (names : List Text) (members : List (Text × Json)) : Option (Text × Json) :=
  names.findSome? fun name => (Table.get? name members).map (name, ·)

/-- A member under one of its names; an absent one has a default, or is an issue under its first
name. -/
def field {α : Type} (names : List Text) (default : Option α) (read : Json → Checked α)
    (members : List (Text × Json)) : Checked α :=
  match lookUp names members with
  | some (name, value) => (read value).inside name
  | none =>
    match default with
    | some a => good a
    | none => (fault .missing).inside (names.headD [])

end CasePlan.Schema
