import CasePlan.Decimal.Shortest
import CasePlan.Table
import CasePlan.Text.Quoted

/-!
# JSON values

`Json` is what a JSON text says.  Whole numbers without point or exponent are integers of any size,
all others doubles; an object keeps its members in order, and of several members with one name the
last value at the first one's place.

* `get?` looks a member up, `isTruthy` tells empty values from others.
* `same` is equality of values across the number types: `true`, `1` and `1.0` are the same.
* `shown` is the text of a value inside a message.
-/

namespace CasePlan

/-- A JSON value. -/
inductive Json where
  /-- `null` -/
  | null
  /-- `true` or `false` -/
  | bool (value : Bool)
  /-- A whole number. -/
  | int (value : Int)
  /-- A number with a point or an exponent, or one of the three that are not finite. -/
  | float (value : Float)
  /-- A text. -/
  | str (value : Text)
  /-- An array. -/
  | arr (items : List Json)
  /-- An object. -/
  | obj (members : List (Text × Json))
  deriving Inhabited

namespace Json

/-- The member of an object with a given name; other values have none. -/
def get? (name : Text) : Json → Option Json
  | obj members => Table.get? name members
  | _ => none

/-- The member of an object with a given name, `null` if there is none. -/
def getD (name : Text) (value : Json) : Json := (value.get? name).getD null

/-- The text, if the value is one. -/
def text? : Json → Option Text
  | str t => some t
  | _ => none

/-- A text, or `null`. -/
def ofText? (t : Option Text) : Json :=
  match t with
  | some t => str t
  | none => null

/-- The items, if the value is an array. -/
def items? : Json → Option (List Json)
  | arr items => some items
  | _ => none

/-- The members, if the value is an object. -/
def members? : Json → Option (List (Text × Json))
  | obj members => some members
  | _ => none

/-- Whether the value counts as something: not `null`, `false`, zero or empty. -/
def isTruthy : Json → Bool
  | null => false
  | bool b => b
  | int n => n != 0
  | float x => !(x == 0.0)
  | str t => !t.isEmpty
  | arr items => !items.isEmpty
  | obj members => !members.isEmpty

/-- The word for the type of a value in messages. -/
def typeWord : Json → Text
  | null => "NoneType"
  | bool _ => "bool"
  | int _ => "int"
  | float _ => "float"
  | str _ => "str"
  | arr _ => "list"
  | obj _ => "dict"

/-! ## Equality of values -/

/-- The exact number that a value stands for, if it is finite. -/
def number? : Json → Option Rat
  | bool b => some (if b then 1 else 0)
  | int n => some n
  | float x => (Decimal.ofFloat? x).map Decimal.Binary.toRat
  | _ => none

/-- Whether two infinities are the same, or both are NaN. -/
def sameUnbounded (x y : Float) : Bool := x == y || (x.isNaN && y.isNaN)

mutual

/-- Whether two values are the same; numbers are compared by worth, members of objects by name. -/
def same : Json → Json → Bool
  | null, null => true
  | str s, str t => s == t
  | arr xs, arr ys => sameItems xs ys
  | obj xs, obj ys => xs.length == ys.length && sameMembers xs ys
  | float x, float y =>
    match (float x).number?, (float y).number? with
    | some p, some q => p == q
    | none, none => sameUnbounded x y
    | _, _ => false
  | x, y =>
    match x.number?, y.number? with
    | some p, some q => p == q
    | _, _ => false

/-- Whether two arrays have the same items in the same order. -/
def sameItems : List Json → List Json → Bool
  | [], [] => true
  | x :: xs, y :: ys => same x y && sameItems xs ys
  | _, _ => false

/-- Whether every member of the first object is one of the second. -/
def sameMembers : List (Text × Json) → List (Text × Json) → Bool
  | [], _ => true
  | (name, x) :: rest, ys =>
    (match Table.get? name ys with
      | some y => same x y
      | none => false) && sameMembers rest ys

end

/-! ## Values in messages -/

mutual

/-- The text of a value nested in another: texts are quoted. -/
def shownInside : Json → Text
  | null => "None"
  | bool true => "True"
  | bool false => "False"
  | int n => Text.ofInt n
  | float x => Decimal.ofFloat x
  | str t => t.quoted
  | arr items => "[" ++ shownItems items ++ "]"
  | obj members => "\x7b" ++ shownMembers members ++ "\x7d"

/-- The items of an array, separated by commas. -/
def shownItems : List Json → Text
  | [] => []
  | [x] => shownInside x
  | x :: rest => shownInside x ++ ", " ++ shownItems rest

/-- The members of an object, separated by commas. -/
def shownMembers : List (Text × Json) → Text
  | [] => []
  | [(name, x)] => name.quoted ++ ": " ++ shownInside x
  | (name, x) :: rest => name.quoted ++ ": " ++ shownInside x ++ ", " ++ shownMembers rest

end

/-- The text of a value in a message: a text stands as it is, all else as inside another value. -/
def shown : Json → Text
  | str t => t
  | value => value.shownInside

end Json

end CasePlan
