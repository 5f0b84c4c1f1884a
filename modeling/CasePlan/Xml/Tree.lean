import CasePlan.Text.Class

/-!
# XML trees

The content of a document as it is written: elements with the names they are written with, runs of
text, CDATA sections, comments, processing instructions and references to entities.

Texts of a tree may still be in the making: `Node.traverse` turns every one of them, in document
order, and stops at the first that fails.
-/

namespace CasePlan.Xml

/-- A piece of content whose texts are of type `τ`. -/
inductive Node (τ : Type) where
  /-- An element with its name, its attributes in order and its content. -/
  | element (name : Text) (attributes : List (Text × τ)) (children : List (Node τ))
  /-- A run of text. -/
  | text (content : τ)
  /-- A CDATA section. -/
  | cdata (content : τ)
  /-- A comment. -/
  | comment (content : Text)
  /-- A processing instruction with its target. -/
  | instruction (target content : Text)
  /-- A reference to an entity. -/
  | reference (name : Text)

namespace Node

variable {τ σ ε : Type}

/-- The values of attributes, turned one after another. -/
def traverseAttributes (turn : τ → Except ε σ) :
    List (Text × τ) → Except ε (List (Text × σ))
  | [] => .ok []
  | (name, value) :: rest => do
    let value ← turn value
    let rest ← traverseAttributes turn rest
    pure ((name, value) :: rest)

mutual

/-- A tree whose texts are turned in document order. -/
def traverse (turn : τ → Except ε σ) : Node τ → Except ε (Node σ)
  | element name attributes children => do
    let attributes ← traverseAttributes turn attributes
    let children ← traverseAll turn children
    pure (element name attributes children)
  | text content => (turn content).map text
  | cdata content => (turn content).map cdata
  | comment content => .ok (comment content)
  | instruction target content => .ok (instruction target content)
  | reference name => .ok (reference name)

/-- Trees whose texts are turned one after another. -/
def traverseAll (turn : τ → Except ε σ) : List (Node τ) → Except ε (List (Node σ))
  | [] => .ok []
  | n :: rest => do
    let n ← traverse turn n
    let rest ← traverseAll turn rest
    pure (n :: rest)

end

end Node

end CasePlan.Xml
