import CasePlan.Diagram.Basic

/-!
# Sentries

A sentry guards the entry of a plan item: it opens when the events at the sources of its edges have
happened and its condition holds.  It is drawn as a small box on the border of the item's box, and
every edge is drawn as a line of points that leads to it.
-/

namespace CasePlan

/-- The event of a plan item that an edge waits for. -/
inductive Event where
  /-- The item starts. -/
  | start
  /-- The item is completed. -/
  | complete
  deriving DecidableEq, Repr

/-- The word for an event. -/
def Event.word : Event → Text
  | .start => "start"
  | .complete => "complete"

/-- Why a sentry is there. -/
inductive SentryKind where
  /-- The item starts with its container. -/
  | start
  /-- Other items lead to the item. -/
  | transition
  /-- The item leads to itself. -/
  | selfLoop
  deriving DecidableEq, Repr

/-- The word for a kind of sentry. -/
def SentryKind.word : SentryKind → Text
  | .start => "start"
  | .transition => "transition"
  | .selfLoop => "self_loop"

/-- Where on the border of the item's box a sentry is drawn. -/
inductive Side where
  /-- On the top edge. -/
  | top
  /-- On the bottom edge. -/
  | bottom
  /-- On the left edge. -/
  | left
  /-- On the right edge. -/
  | right
  /-- On the top left corner. -/
  | corner
  deriving DecidableEq, Repr

/-- The word for a side. -/
def Side.word : Side → Text
  | .top => "top"
  | .bottom => "bottom"
  | .left => "left"
  | .right => "right"
  | .corner => "corner"

/-- A line that leads from the source of an event to a sentry. -/
structure Edge (α : Type) where
  /-- Slug of the source, or the name of the main stage. -/
  source : Text
  /-- Slug of the item that the sentry belongs to. -/
  target : Text
  /-- The event waited for. -/
  event : Event
  /-- The points of the line. -/
  waypoints : List (Point α)
  /-- Where the line leaves the source, seen from its corner. -/
  sourceDocker : Point α
  /-- Where the line meets the sentry, seen from its corner. -/
  targetDocker : Point α
  deriving DecidableEq, Repr

/-- A guard of a plan item. -/
structure Sentry (α : Type) where
  /-- Slug of the plan item. -/
  owner : Text
  /-- Its place among the sentries of the item. -/
  index : Nat
  /-- Why it is there. -/
  kind : SentryKind
  /-- Where on the item's box it is drawn. -/
  side : Side
  /-- Its box. -/
  box : Box α
  /-- The expression that must hold; empty if there is none. -/
  condition : Text := []
  /-- The lines that lead to it. -/
  edges : List (Edge α) := []
  deriving DecidableEq, Repr

namespace Sentry

variable {α : Type} [Coordinate α]

/-- Width of a sentry's box. -/
def width : Nat := 14

/-- Height of a sentry's box. -/
def height : Nat := 22

/-- The box of a sentry with a given corner. -/
def boxAt (x y : α) : Box α := ⟨x, y, Coordinate.ofNat width, Coordinate.ofNat height⟩

/-- The middle of a sentry's box. -/
def anchorOf (b : Box α) : Point α :=
  ⟨b.x + Coordinate.part b.width 2, b.y + Coordinate.part b.height 2⟩

/-- The middle of the sentry's box, a point on the border of the item's box. -/
def anchor (s : Sentry α) : Point α := anchorOf s.box

/-- The middle of a sentry's box, seen from its corner. -/
def centre : Point α := ⟨Coordinate.ofNat 7, Coordinate.ofNat 11⟩

end Sentry

end CasePlan
