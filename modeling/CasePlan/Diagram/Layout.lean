import CasePlan.Diagram.Basic
import CasePlan.Logic.Basic

/-!
# Layouts

A layout turns a description into a diagram.  Its top-level nodes come in the order of the tasks; a
stage stands at the place of its first task and holds its members in its own order.

* `Layout.alternating` steps to the right with every node.  From top to bottom it stacks the nodes
  at even places in reverse, then those at odd places in order, so that no two nodes share a column
  or a row.  The tasks of a stage are placed in the same way within the stage, in both layouts.
* `Layout.grid` fills the rows of a square from left to right, every cell as large as the largest
  node.
-/

namespace CasePlan

/-- How the top-level nodes are placed. -/
inductive LayoutMode where
  /-- In two alternating rows. -/
  | alternating
  /-- In the cells of a square. -/
  | grid
  deriving DecidableEq, Repr

/-- The word for a layout. -/
def LayoutMode.word : LayoutMode → Text
  | .alternating => "alternating"
  | .grid => "grid"

/-- All layouts, in the order in which messages list them. -/
def LayoutMode.all : List LayoutMode := [.alternating, .grid]

/-- The layout meant by a word. -/
def LayoutMode.ofWord? (t : Text) : Option LayoutMode := all.find? (·.word = t)

@[simp] theorem LayoutMode.ofWord?_word (m : LayoutMode) : LayoutMode.ofWord? m.word = some m := by
  cases m <;> rfl

namespace Layout

/-- Width of a task. -/
def taskWidth : Nat := 120

/-- Height of a task. -/
def taskHeight : Nat := 80

/-- Free space between nodes. -/
def margin : Nat := 50

/-- The items at even places, in reverse, and those at odd places. -/
def splitAlternating {α : Type} (items : List α) : List α × List α :=
  let even := (items.zipIdx.filter fun (_, i) => i % 2 = 0).map (·.1)
  let odd := (items.zipIdx.filter fun (_, i) => i % 2 = 1).map (·.1)
  (even.reverse, odd)

/-- Width and height of a stage with a number of tasks. -/
def stageFootprint (count : Int) : Int × Int :=
  (count * taskWidth + (count + 1) * margin, count * taskHeight + (count + 1) * margin)

/-! ## What is placed -/

/-- What stands at the top of a diagram: a task of no stage, or a stage. -/
inductive Item where
  /-- A task. -/
  | task (task : Task)
  /-- A stage. -/
  | stage (stage : Stage)
  deriving DecidableEq, Repr

/-- The items for some tasks, given the slugs of the stages that stand already. -/
def itemsFrom (logic : Logic) (placed : List Text) : List Task → List Item
  | [] => []
  | t :: rest =>
    match logic.stageOf? t.slug with
    | none => .task t :: itemsFrom logic placed rest
    | some s =>
      if s.slug ∈ placed then itemsFrom logic placed rest
      else .stage s :: itemsFrom logic (s.slug :: placed) rest

/-- The items of a description, in the order of their first tasks. -/
def items (logic : Logic) : List Item := itemsFrom logic [] logic.tasks

/-- Number of columns, and of rows, that an item takes: one for a task. -/
def Item.count : Item → Nat
  | .task _ => 1
  | .stage s => s.members.length

/-- Width of an item. -/
def Item.width : Item → Rat
  | .task _ => taskWidth
  | .stage s => (stageFootprint s.members.length).1

/-- Height of an item. -/
def Item.height : Item → Rat
  | .task _ => taskHeight
  | .stage s => (stageFootprint s.members.length).2

/-- The first member of a placed stage that is no task. -/
def unknownMember? (logic : Logic) : Option Text :=
  (items logic).findSome? fun
    | .task _ => none
    | .stage s => s.members.find? fun slug => (logic.task? slug).isNone

/-! ## Where it is placed -/

/-- Whether the alternating layout stacks place `j` above place `i`. -/
def above (j i : Nat) : Bool :=
  if i % 2 = 0 then j % 2 = 0 && i < j else j % 2 = 0 || j < i

/-- The sum of the sizes, with a margin for each. -/
def span (sizes : List Rat) : Rat := sizes.foldr (fun s rest => s + margin + rest) 0

/-- The corners of boxes that are placed alternately, beginning at an origin. -/
def alternate (origin : Point Rat) (sizes : List (Rat × Rat)) : List (Point Rat) :=
  sizes.zipIdx.map fun (_, i) =>
    { x := origin.x + span ((sizes.take i).map (·.1)) + margin
      y := origin.y + span ((sizes.zipIdx.filter fun (_, j) => above j i).map (·.1.2)) + margin }

/-- The nodes of a stage's members, placed alternately in the stage. -/
def members (logic : Logic) (stage : Stage) (origin : Point Rat) : List (Node Rat) :=
  let corners := alternate origin
    (stage.members.map fun _ => ((taskWidth : Rat), (taskHeight : Rat)))
  (stage.members.zip corners).map fun (slug, corner) =>
    { slug := slug
      name := ((logic.task? slug).map (·.displayName)).getD []
      kind := .task
      parent := some stage.slug
      box := ⟨corner.x, corner.y, taskWidth, taskHeight⟩ }

/-- The node of an item whose top left corner is given. -/
def Item.node (logic : Logic) (item : Item) (corner : Point Rat) : Node Rat :=
  let box : Box Rat := ⟨corner.x, corner.y, item.width, item.height⟩
  match item with
  | .task t => { slug := t.slug, name := t.displayName, kind := .task, box := box }
  | .stage s =>
    { slug := s.slug, name := s.displayName, kind := .stage, box := box,
      children := members logic s corner }

/-- The greatest of some numbers, at least zero. -/
def greatest (numbers : List Rat) : Rat := numbers.foldl (fun p q => if p ≤ q then q else p) 0

/-- The least number of columns of a square with at least `n` cells. -/
def columns (n : Nat) : Nat := ((List.range (n + 1)).find? fun c => n ≤ c * c).getD n

/-- The corners of boxes that are placed in the cells of a square. -/
def gridCorners (sizes : List (Rat × Rat)) : List (Point Rat) :=
  let count := columns sizes.length
  let pitchX := greatest (sizes.map (·.1)) + 60
  let pitchY := greatest (sizes.map (·.2)) + 70
  sizes.zipIdx.map fun (_, i) =>
    { x := 120 + ((i % count : Nat) : Rat) * pitchX, y := 150 + ((i / count : Nat) : Rat) * pitchY }

/-- The corners of the items in a layout. -/
def corners (mode : LayoutMode) (items : List Item) : List (Point Rat) :=
  let sizes := items.map fun item => (item.width, item.height)
  match mode with
  | .alternating => alternate ⟨50, 30⟩ sizes
  | .grid => gridCorners sizes

/-- Width and height of the main stage around alternating nodes. -/
def alternatingSize (items : List Item) : Rat × Rat :=
  let count := items.foldr (fun item rest => item.count + rest) 0
  let margins := items.length + 1 + (count + items.length)
  (((count * taskWidth + margins * margin : Nat) : Rat),
    ((count * taskHeight + margins * margin : Nat) : Rat))

/-- Width and height of the main stage around the nodes of a grid. -/
def gridSize (nodes : List (Node Rat)) : Rat × Rat :=
  if nodes.isEmpty then (120 - 40 + margin, 150 - 50 + margin)
  else
    (greatest (nodes.map (·.box.right)) - 40 + margin,
      greatest (nodes.map (·.box.bottom)) - 50 + margin)

/-- The diagram of a description. -/
def diagram (mode : LayoutMode) (logic : Logic) : Diagram Rat :=
  let items := items logic
  let nodes := (items.zip (corners mode items)).map fun (item, corner) => item.node logic corner
  let (width, height) := match mode with
    | .alternating => alternatingSize items
    | .grid => gridSize nodes
  { nodes, width, height }

end Layout

/-- The diagram of a description; a stage that names a task which does not exist has none, and the
slug of that task is given back. -/
def layOut (mode : LayoutMode) (logic : Logic) : Except Text (Diagram Rat) :=
  match Layout.unknownMember? logic with
  | some slug => .error slug
  | none => .ok (Layout.diagram mode logic)

end CasePlan
