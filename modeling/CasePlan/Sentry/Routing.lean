import CasePlan.Expression
import CasePlan.Logic.Transition
import CasePlan.Sentry.Basic
import CasePlan.Table

/-!
# Routing

`route` derives the sentries of every node of a diagram from the transitions of the description.

* The first node of a container, and every node that no other node leads to, has a start sentry on
  its top left corner, with an edge from its container.  The first node of a stage does without it
  when an earlier task outside the stage leads to it.
* All transitions from other nodes share one sentry.  With one source it sits on the top or bottom
  edge, on the side where the source lies; with several, on the left or right edge, on the side
  where most of them lie.
* Transitions from the node itself share another sentry on the top edge.

Further sentries on one edge move on by one sentry.
-/

namespace CasePlan

variable {α : Type} [Coordinate α]

/-- Where one node lies as seen from another. -/
inductive Quadrant where
  /-- Above or level, and to the right. -/
  | topRight
  /-- Above or level, and to the left or level. -/
  | topLeft
  /-- Below, and to the right. -/
  | bottomRight
  /-- Below, and to the left or level. -/
  | bottomLeft
  deriving DecidableEq, Repr

namespace Quadrant

/-- The word for a quadrant. -/
def word : Quadrant → Text
  | topRight => "topright"
  | topLeft => "topleft"
  | bottomRight => "bottomright"
  | bottomLeft => "bottomleft"

/-- All quadrants; of equally many votes the earliest here wins. -/
def all : List Quadrant := [topRight, topLeft, bottomRight, bottomLeft]

/-- The quadrant meant by a word. -/
def ofWord? (t : Text) : Option Quadrant := all.find? (·.word = t)

@[simp] theorem ofWord?_word (q : Quadrant) : ofWord? q.word = some q := by
  cases q <;> rfl

/-- Whether the quadrant is one of the upper two. -/
def isTop : Quadrant → Bool
  | topRight | topLeft => true
  | _ => false

/-- Whether the quadrant is one of the left two. -/
def isLeft : Quadrant → Bool
  | topLeft | bottomLeft => true
  | _ => false

/-- Where `source` lies as seen from `target`. -/
def of (source target : Box α) : Quadrant :=
  match Coordinate.less target.y source.y, Coordinate.less target.x source.x with
  | true, true => bottomRight
  | true, false => bottomLeft
  | false, true => topRight
  | false, false => topLeft

/-- The quadrant with most votes; of equals the earliest in `all`. -/
def vote (quadrants : List Quadrant) : Quadrant :=
  all.foldl (fun best q => if quadrants.count best < quadrants.count q then q else best) topRight

end Quadrant

/-- How many sentries sit on each edge of a node already. -/
structure SideCounts where
  /-- On the top edge. -/
  top : Nat := 0
  /-- On the bottom edge. -/
  bottom : Nat := 0
  /-- On the left edge. -/
  left : Nat := 0
  /-- On the right edge. -/
  right : Nat := 0

namespace Routing

open Coordinate

/-- A point of whole numbers. -/
def point (x y : Nat) : Point α := ⟨ofNat x, ofNat y⟩

/-- A point as seen from another. -/
def seenFrom (origin p : Point α) : Point α := ⟨p.x - origin.x, p.y - origin.y⟩

/-- The line from the completion of one node to a sentry of another. -/
def edge (source target : Node α) (waypoints : List (Point α)) (start targetDocker : Point α) :
    Edge α :=
  { source := source.slug
    target := target.slug
    event := .complete
    waypoints := waypoints
    sourceDocker := seenFrom source.box.topLeft start
    targetDocker := targetDocker }

/-- The sentry that opens a node when its container starts. -/
def startSentry (node : Node α) (container : Text) (origin : Point α) (index : Nat) : Sentry α :=
  let box := Sentry.boxAt (node.box.x - ofNat 7) (node.box.y - ofNat 11)
  let anchor := Sentry.anchorOf box
  let start : Point α := ⟨origin.x + ofNat 8, origin.y + ofNat 10⟩
  { owner := node.slug
    index := index
    kind := .start
    side := .corner
    box := box
    edges :=
      [{ source := container
         target := node.slug
         event := .start
         waypoints := [start, ⟨anchor.x, start.y⟩, anchor]
         sourceDocker := point 8 10
         targetDocker := Sentry.centre }] }

/-- The box of sentry number `k` on the top or bottom edge, from the right. -/
def boxOnRow (corner : Point α) (k : Nat) : Box α :=
  Sentry.boxAt (corner.x - ofNat ((k + 3) * Sentry.width)) (corner.y - ofNat 11)

/-- The box of sentry number `k` on the left or right edge, from the top. -/
def boxOnColumn (corner : Point α) (k : Nat) : Box α :=
  Sentry.boxAt (corner.x - ofNat 7) (corner.y + ofNat ((k + 1) * Sentry.height))

/-- The sentry of a node that one other node leads to. -/
def singleSentry (node source : Node α) (counts : SideCounts) (index : Nat) (condition : Text) :
    Sentry α × SideCounts :=
  let quadrant := Quadrant.of source.box node.box
  let (side, box, exitY, counts) : Side × Box α × α × SideCounts :=
    if quadrant.isTop then
      (.top, boxOnRow node.box.topRight counts.top,
        source.box.y + part (times source.box.height 3) 4, { counts with top := counts.top + 1 })
    else
      (.bottom, boxOnRow node.box.bottomRight counts.bottom,
        source.box.y + part source.box.height 4, { counts with bottom := counts.bottom + 1 })
  let exitX := if quadrant.isLeft then source.box.right else source.box.x
  let start : Point α := ⟨exitX, exitY⟩
  let anchor := Sentry.anchorOf box
  let line := edge source node [start, ⟨anchor.x, start.y⟩, anchor] start Sentry.centre
  ({ owner := node.slug, index, kind := .transition, side, box, condition, edges := [line] },
    counts)

/-- The sentry of a node that several other nodes lead to. -/
def sharedSentry (node : Node α) (sources : List (Node α)) (counts : SideCounts) (index : Nat)
    (condition : Text) : Sentry α × SideCounts :=
  let quadrant := Quadrant.vote (sources.map fun s => Quadrant.of s.box node.box)
  let (side, box, counts) : Side × Box α × SideCounts :=
    if quadrant.isLeft then
      (.left, boxOnColumn node.box.topLeft counts.left, { counts with left := counts.left + 1 })
    else
      (.right, boxOnColumn node.box.topRight counts.right,
        { counts with right := counts.right + 1 })
  let anchor := Sentry.anchorOf box
  let line (source : Node α) : Edge α :=
    let start : Point α :=
      ⟨source.box.x + part source.box.width 4,
        if (Quadrant.of source.box node.box).isTop then source.box.bottom else source.box.y⟩
    edge source node [start, ⟨start.x, anchor.y⟩, anchor] start Sentry.centre
  ({ owner := node.slug, index, kind := .transition, side, box, condition,
     edges := sources.map line }, counts)

/-- The sentry of a node that leads to itself. -/
def loopSentry (node : Node α) (counts : SideCounts) (index : Nat) (condition : Text) : Sentry α :=
  let box := boxOnRow node.box.topRight counts.top
  let loopY := node.box.y + part node.box.height 4
  let outerX := node.box.right + ofNat 20
  let start : Point α := ⟨node.box.right, loopY⟩
  let line := edge node node
    [start, ⟨outerX, loopY⟩, ⟨outerX, box.y⟩, ⟨box.x + ofNat 7, box.y⟩] start (point 7 0)
  { owner := node.slug, index, kind := .selfLoop, side := .top, box, condition, edges := [line] }

/-- The condition that some transitions make together. -/
def joinedCondition (transitions : List Transition) : Text :=
  Expression.condition (transitions.filterMap (·.condition))

/-- The sources of some transitions, each once. -/
def sourcesOf (transitions : List Transition) : List Text :=
  (transitions.map (·.source)).eraseDups

/-- The sentries of a node, given its transitions from other nodes, the nodes that these come from,
and its transitions from itself. -/
def nodeSentries (node : Node α) (waits : Bool) (container : Container α)
    (external loops : List Transition) (sources : List (Node α)) : List (Sentry α) :=
  let first : List (Sentry α) :=
    if waits || external.isEmpty then [startSentry node container.slug container.origin 0] else []
  let (shared, counts) : List (Sentry α) × SideCounts :=
    match sources with
    | [] => ([], {})
    | [source] =>
      let (s, counts) := singleSentry node source {} first.length (joinedCondition external)
      ([s], counts)
    | sources =>
      let (s, counts) := sharedSentry node sources {} first.length (joinedCondition external)
      ([s], counts)
  let last : List (Sentry α) :=
    if loops.isEmpty then []
    else [loopSentry node counts (first.length + shared.length) (joinedCondition loops)]
  first ++ shared ++ last

/-- The container that a node lies in; of several the last. -/
def containerOf? (containers : List (Container α)) (slug : Text) : Option Text :=
  (containers.reverse.find? fun c => c.members.any (·.slug = slug)).map (·.slug)

/-- Whether an earlier task of another container leads to a node in a stage. -/
def isEntered (logic : Logic) (containers : List (Container α)) (container : Text)
    (node : Node α) (incoming : List Transition) : Bool :=
  container ≠ rootContainer &&
    incoming.any fun t =>
      containerOf? containers t.source ≠ some container &&
        (match logic.position? t.source, logic.position? node.slug with
          | some s, some n => s < n
          | none, some _ => true
          | _, none => false)

/-- The sentries of a node; a source without a node is given back as an error. -/
def routeNode (logic : Logic) (diagram : Diagram α) (transitions : List Transition)
    (container : Container α) (place : Nat) (node : Node α) : Except Text (List (Sentry α)) := do
  let incoming := transitions.filter (·.target = node.slug)
  let external := incoming.filter (!·.isSelfLoop)
  let loops := incoming.filter (·.isSelfLoop)
  let entered := isEntered logic diagram.containers container.slug node incoming
  let sources ← (sourcesOf external).mapM fun slug =>
    match diagram.find? slug with
    | some source => .ok source
    | none => .error slug
  pure (nodeSentries node (place == 0 && !entered) container external loops sources)

end Routing

/-- The sentries of every node of a diagram, under its slug: the nodes at the top, then the children
of each stage.  A slug that no task or node has is given back as an error. -/
def route (logic : Logic) (diagram : Diagram α) : Except Text (List (Text × List (Sentry α))) := do
  if let some slug := logic.unknownApprover? then .error slug
  let transitions := logic.transitions
  let routed ← diagram.containers.mapM fun container =>
    container.members.zipIdx.mapM fun (node, place) =>
      (Routing.routeNode logic diagram transitions container place node).map (node.slug, ·)
  pure (Table.ofList routed.flatten)

end CasePlan
