import CasePlan.Text.Word
import CasePlan.Xml.Namespace

/-!
# Looking around in documents

Attributes, children and descendants of elements, and the text that an element begins with.  A
processing instruction shows attributes, too, if its data look like some.
-/

namespace CasePlan.Xml.Content

/-- The value of an attribute. -/
def attribute? (space : Option Text) (base : Text) : Content → Option Text
  | element _ _ attributes _ =>
    (attributes.find? fun (name, _) => name.space = space && name.base = base).map (·.2)
  | _ => none

/-- Whether the piece is an element of a name in a namespace. -/
def isElement (space base : Text) : Content → Bool
  | element name _ _ _ => name.space = some space && name.base = base
  | _ => false

/-- The content of an element. -/
def children : Content → List Content
  | element _ _ _ children => children
  | _ => []

/-- The first child of a name in a namespace. -/
def child? (space base : Text) (c : Content) : Option Content :=
  c.children.find? (isElement space base)

/-- The text before the first child that is none. -/
def leadingText (c : Content) : Text :=
  c.children.takeWhile (fun | text _ => true | _ => false) |>.flatMap fun
    | text t => t
    | _ => []

mutual

/-- The piece and everything in it, in document order, each with a value that elements of interest
hand down to their content. -/
def descendantsUnder {α : Type} (hand : Content → α → α) (above : α) :
    Content → List (Content × α)
  | element name declared attributes children =>
    let here := element name declared attributes children
    (here, above) :: descendantsAll hand (hand here above) children
  | piece => [(piece, above)]

/-- Some pieces and everything in them. -/
def descendantsAll {α : Type} (hand : Content → α → α) (above : α) :
    List Content → List (Content × α)
  | [] => []
  | c :: rest => descendantsUnder hand above c ++ descendantsAll hand above rest

end

/-- The piece and everything in it, in document order. -/
def descendants (c : Content) : List Content :=
  (descendantsUnder (fun _ _ => ()) () c).map (·.1)

/-! ## Attributes of processing instructions -/

/-- An attribute after white space: a word, an equals sign and a quoted value. -/
def readPseudoAttribute (t : Text) : Option ((Text × Text) × Text) := do
  let (name, rest) := t.span Text.isWord
  if name.isEmpty then none
  let rest ← Text.after? "=" (rest.dropWhile Text.isBlank)
  let (value, rest) ← readLiteral (rest.dropWhile Text.isBlank)
  pure ((name, value), rest)

/-- Everything in a text that looks like an attribute. -/
def pseudoAttributes (fuel : Nat) (t : Text) : List (Text × Text) :=
  match fuel, t.dropWhile (!Text.isBlank ·) with
  | 0, _ | _, [] => []
  | fuel + 1, found =>
    let rest := found.dropWhile Text.isBlank
    match readPseudoAttribute rest with
    | some (a, rest) => a :: pseudoAttributes fuel rest
    | none => pseudoAttributes fuel rest

/-- The class that a piece names: an attribute of an element, or of a processing instruction, where
the last of several counts. -/
def class? : Content → Option Text
  | instruction _ data =>
    let attributes := pseudoAttributes (data.length + 2) (32 :: data)
    (attributes.reverse.find? (·.1 = ("class" : Text))).map (·.2)
  | c => c.attribute? none "class"

end CasePlan.Xml.Content
