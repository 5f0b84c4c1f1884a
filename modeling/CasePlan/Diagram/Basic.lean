import CasePlan.Diagram.Coordinate

/-!
# Diagrams

A diagram places the stages and tasks of a case as boxes.  Tasks of a stage are its children; the
boxes of all others lie at the top.

`Diagram.find?` looks a node up by its slug and `Diagram.containers` lists the groups of nodes that
share an enclosing shape.
-/

namespace CasePlan

variable {α : Type}

/-- A point of the diagram. -/
structure Point (α : Type) where
  /-- Distance from the left. -/
  x : α
  /-- Distance from the top. -/
  y : α
  deriving DecidableEq, Repr

/-- A box by its top left corner and its size. -/
structure Box (α : Type) where
  /-- Left edge. -/
  x : α
  /-- Top edge. -/
  y : α
  /-- Width. -/
  width : α
  /-- Height. -/
  height : α
  deriving DecidableEq, Repr

namespace Box

variable [Coordinate α]

/-- The right edge. -/
def right (b : Box α) : α := b.x + b.width

/-- The bottom edge. -/
def bottom (b : Box α) : α := b.y + b.height

/-- The top left corner. -/
def topLeft (b : Box α) : Point α := ⟨b.x, b.y⟩

/-- The top right corner. -/
def topRight (b : Box α) : Point α := ⟨b.right, b.y⟩

/-- The bottom left corner. -/
def bottomLeft (b : Box α) : Point α := ⟨b.x, b.bottom⟩

/-- The bottom right corner. -/
def bottomRight (b : Box α) : Point α := ⟨b.right, b.bottom⟩

/-- Whether two boxes share a part of their inside. -/
def intersects (a b : Box α) : Bool :=
  !(Coordinate.atMost a.right b.x || Coordinate.atMost b.right a.x ||
    Coordinate.atMost a.bottom b.y || Coordinate.atMost b.bottom a.y)

end Box

/-- What a node stands for. -/
inductive NodeKind where
  /-- A stage. -/
  | stage
  /-- A task. -/
  | task
  deriving DecidableEq, Repr

/-- The word for a kind of node. -/
def NodeKind.word : NodeKind → Text
  | .stage => "stage"
  | .task => "task"

/-- A stage or task with its box. -/
structure Node (α : Type) where
  /-- Slug of the stage or task. -/
  slug : Text
  /-- Its name for readers. -/
  name : Text
  /-- Whether it is a stage or a task. -/
  kind : NodeKind
  /-- Slug of the enclosing stage. -/
  parent : Option Text := none
  /-- Its place. -/
  box : Box α
  /-- The tasks of a stage, in order. -/
  children : List (Node α) := []

/-- The nodes of a case and the size of the shape around them. -/
structure Diagram (α : Type) where
  /-- The nodes that no stage encloses, in order. -/
  nodes : List (Node α)
  /-- Width of the main stage. -/
  width : α
  /-- Height of the main stage. -/
  height : α

/-- The name by which edges refer to the main stage. -/
def rootContainer : Text := "__root__"

/-- Nodes that share an enclosing shape. -/
structure Container (α : Type) where
  /-- Slug of the enclosing stage, or the name of the main stage. -/
  slug : Text
  /-- Top left corner of the enclosing shape. -/
  origin : Point α
  /-- The nodes inside, in order. -/
  members : List (Node α)

namespace Diagram

/-- Every node at the top, each followed by its children. -/
def entries (d : Diagram α) : List (Node α) := d.nodes.flatMap fun n => n :: n.children

/-- The node with a slug; of several the last. -/
def find? (d : Diagram α) (slug : Text) : Option (Node α) :=
  d.entries.reverse.find? (·.slug = slug)

/-- The top left corner of the main stage. -/
def rootOrigin [Coordinate α] : Point α := ⟨Coordinate.ofNat 40, Coordinate.ofNat 50⟩

/-- The main stage, then every node with children. -/
def containers [Coordinate α] (d : Diagram α) : List (Container α) :=
  ⟨rootContainer, rootOrigin, d.nodes⟩ ::
    (d.nodes.filter (!·.children.isEmpty)).map fun n => ⟨n.slug, n.box.topLeft, n.children⟩

end Diagram

end CasePlan
