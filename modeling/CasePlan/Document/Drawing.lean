import CasePlan.Document.PlanModel

/-!
# The diagram of a document

A shape for the plan model and one for the main stage, then a shape for every plan item and every
sentry in the order of the plan model, then an edge for every event that a sentry waits for.
-/

namespace CasePlan.Document

variable {α : Type} [Coordinate α]

open Coordinate

/-- The shape of an element. -/
def shape (id : Text) (ref : Draft) (b : Box α) : Piece :=
  .element "cmmndi:CMMNShape" [("id", .ok id), ("cmmnElementRef", ref)]
    [element "dc:Bounds"
        [("height", written b.height), ("width", written b.width), ("x", written b.x),
          ("y", written b.y)] [],
      element "cmmndi:CMMNLabel" [] []]

/-- The attributes that place a point. -/
def place (p : Point α) : List (Text × Text) := [("x", written p.x), ("y", written p.y)]

/-- The line of an edge of a sentry. -/
def edge (c : Context α) (s : Sentry α) (e : Edge α) : Piece :=
  let source := if e.source = rootContainer then c.case.mainItem else e.source
  .element "cmmndi:CMMNEdge"
    [("id", .ok ("CMMNEdge_sid-" ++ source ++ "_to_" ++ e.target ++ Text.ofNat s.index)),
      ("cmmnElementRef", c.planItemId e.source),
      ("targetCMMNElementRef", .ok (criterionId s))]
    (element "di:extension" []
        [element "flowable:docker" (("type", "source") :: place e.sourceDocker) [],
          element "flowable:docker" (("type", "target") :: place e.targetDocker) []] ::
      e.waypoints.map (fun p => element "di:waypoint" (place p) []) ++
      [element "cmmndi:CMMNLabel" [] []])

/-- The shapes of some nodes, of their plan items first and then of their sentries. -/
def memberShapes (c : Context α) (members : List (Node α)) : List Piece :=
  members.map (fun n =>
      shape (Identifier.shapeId (c.scope n ++ n.slug)) (c.planItemId n.slug) n.box) ++
    members.flatMap fun n => (c.sentriesOf n).map fun s =>
      shape ("CMMNShape_planItem" ++ sentryName s) (.ok (criterionId s)) s.box

/-- The edges that lead to the sentries of some nodes. -/
def memberEdges (c : Context α) (members : List (Node α)) : List Piece :=
  members.flatMap fun n => (c.sentriesOf n).flatMap fun s => s.edges.map (edge c s)

mutual

/-- What is drawn for the members of the stage that a node is, and for everything in it. -/
def insideNode (draw : List (Node α) → List Piece) : Node α → List Piece
  | ⟨_, _, kind, _, _, children⟩ =>
    if kind = .stage then draw children ++ insideNodes draw children else []

/-- What is drawn for everything in the stages among some nodes. -/
def insideNodes (draw : List (Node α) → List Piece) : List (Node α) → List Piece
  | [] => []
  | n :: rest => insideNode draw n ++ insideNodes draw rest

end

/-- What is drawn for some nodes, and then for everything in the stages among them. -/
def drawAll (draw : List (Node α) → List Piece) (nodes : List (Node α)) : List Piece :=
  draw nodes ++ insideNodes draw nodes

/-- The diagram with its shapes and edges. -/
def diagramElement (c : Context α) : Piece :=
  let width := c.diagram.width
  let height := c.diagram.height
  let modelBox : Box α := ⟨ofNat 20, ofNat 30, width + ofNat 50, height + ofNat 50⟩
  let mainBox : Box α := ⟨ofNat 40, ofNat 50, width, height⟩
  element "cmmndi:CMMNDI" []
    [element "cmmndi:CMMNDiagram" [("id", "CMMNDiagram_" ++ c.case.id)]
      (shape (Identifier.shapeId c.case.name) (.ok c.case.planModelId) modelBox ::
        shape (Identifier.shapeId c.case.mainItem) (.ok (Identifier.planItemId c.case.mainItem))
          mainBox ::
        drawAll (memberShapes c) c.diagram.nodes ++
        drawAll (memberEdges c) c.diagram.nodes)]

end CasePlan.Document
