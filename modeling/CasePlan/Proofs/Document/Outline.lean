import CasePlan.Document.Emission
import CasePlan.Proofs.Decimal.Written
import CasePlan.Proofs.Document.Elements
import CasePlan.Proofs.Document.Settling
import CasePlan.Proofs.Sentry.Outline
import CasePlan.Proofs.Xml.Replacement

/-!
# Documents do not look at measures

The case of a document is made from the outlines of its diagram and of its sentries alone.  The
diagram is, too, apart from the coordinates and sizes that are written into it; `hideMeasures`
leaves these out.

* `caseElement_outline`, `hidden_diagramElement`: what a document is made from.
* `emit_of_outline_eq`: documents of cases with one outline differ in measures only.
* `route_emit_of_depicts`: sentries and documents of two diagrams of one description do.
-/

namespace CasePlan

namespace Document

open Coordinate Xml.Node

variable {α β : Type}

/-! ## The case -/

namespace Context

/-- What documents are made from, without measures. -/
def outline (c : Context α) : Context Unit where
  logic := c.logic
  diagram := c.diagram.outline
  sentries := c.sentries.map outlineEntry
  case := c.case
  config := c.config
  repeatable := c.repeatable
  repeatable_eq := c.repeatable_eq

theorem scope_outline (c : Context α) (n : Node α) : c.outline.scope n.outline = c.scope n := by
  unfold scope
  rw [Node.parent_outline]
  rfl

theorem planItemId_outline (c : Context α) (slug : Text) :
    c.outline.planItemId slug = c.planItemId slug := by
  have hfind : c.outline.diagram.find? slug = (c.diagram.find? slug).map Node.outline :=
    c.diagram.find?_outline slug
  unfold planItemId
  rw [hfind]
  cases c.diagram.find? slug with
  | none => rfl
  | some n =>
    simp only [Option.map_some, scope_outline]
    rfl

theorem definitionId_outline (c : Context α) (n : Node α) :
    c.outline.definitionId n.outline = c.definitionId n := by
  unfold definitionId
  rw [Node.kind_outline, Node.slug_outline, scope_outline]

theorem sentriesOf_outline (c : Context α) (n : Node α) :
    c.outline.sentriesOf n.outline = (c.sentriesOf n).map Sentry.outline := by
  have hget : Table.get? n.slug (c.sentries.map outlineEntry) =
      (Table.get? n.slug c.sentries).map (·.map Sentry.outline) :=
    Table.get?_map ..
  unfold sentriesOf
  rw [Node.slug_outline]
  show (Table.get? n.slug (c.sentries.map outlineEntry)).getD [] = _
  rw [hget]
  cases Table.get? n.slug c.sentries <;> rfl

end Context

theorem planItem_outline (c : Context α) (n : Node α) :
    planItem c.outline n.outline = planItem c n := by
  have hrepeats : repeats c.outline n.outline = repeats c n := by
    unfold repeats
    rw [Node.kind_outline, Node.slug_outline]
    rfl
  unfold planItem
  rw [hrepeats, Node.slug_outline, Node.name_outline, c.planItemId_outline,
    c.definitionId_outline, c.sentriesOf_outline, List.map_map]
  rfl

theorem sentry_outline (c : Context α) (s : Sentry α) :
    sentry c.outline s.outline = sentry c s := by
  have hplaces : s.outline.edges.zipIdx = s.edges.zipIdx.map (Prod.map Edge.outline id) :=
    List.zipIdx_map ..
  unfold sentry
  rw [hplaces, List.map_map]
  simp only [Function.comp_def, Prod.map, c.planItemId_outline, Edge.outline]
  rfl

theorem humanTask_outline (c : Context α) (n : Node α) :
    humanTask c.outline n.outline = humanTask c n := by
  have hattributes : humanTaskAttributes c.outline n.outline = humanTaskAttributes c n := by
    funext t
    unfold humanTaskAttributes
    rw [c.definitionId_outline, Node.name_outline]
    rfl
  unfold humanTask
  rw [Node.slug_outline, hattributes]
  rfl

theorem stageContentWith_outline (c : Context α) (members : List (Node α)) (nested : List Piece) :
    stageContentWith c.outline (members.map Node.outline) nested =
      stageContentWith c members nested := by
  have hkind : (fun n : Node Unit => decide (n.kind = .task)) ∘ Node.outline =
      fun n : Node α => decide (n.kind = .task) := by
    funext n
    rw [Function.comp_apply, Node.kind_outline]
  have hsentries : (fun n : Node α => (c.outline.sentriesOf n.outline).map (sentry c.outline)) =
      fun n => (c.sentriesOf n).map (sentry c) := by
    funext n
    rw [c.sentriesOf_outline, List.map_map]
    exact List.map_congr_left fun s _ => sentry_outline c s
  unfold stageContentWith
  rw [List.flatMap_map, hsentries, List.filter_map, hkind, List.map_map, List.map_map]
  simp only [Function.comp_def, planItem_outline, humanTask_outline]

mutual

/-- Nested stages are made from outlines. -/
theorem nestedStage_outline (c : Context α) : ∀ n : Node α,
    nestedStage c.outline n.outline = nestedStage c n
  | ⟨slug, name, kind, parent, box, children⟩ => by
    rw [nestedStage_eq, Node.children_outline, stageContentWith_outline,
      nestedStages_outline c children]
    rfl

theorem nestedStages_outline (c : Context α) : ∀ ns : List (Node α),
    nestedStages c.outline (ns.map Node.outline) = nestedStages c ns
  | [] => rfl
  | n :: ns => by
    rw [List.map_cons, nestedStages, nestedStages, nestedStage_outline c n,
      nestedStages_outline c ns]

end

/-- The case of a document is made from outlines. -/
theorem caseElement_outline (c : Context α) : caseElement c.outline = caseElement c := by
  have hcontent : stageContent c.outline c.outline.diagram.nodes =
      stageContent c c.diagram.nodes := by
    show stageContent c.outline (c.diagram.nodes.map Node.outline) = _
    unfold stageContent
    rw [nestedStages_outline, stageContentWith_outline]
  unfold caseElement
  rw [hcontent]
  rfl

/-! ## Measures -/

/-- Whether an attribute of an element holds a coordinate or a size. -/
def isMeasure (name key : Text) : Bool :=
  name ∈ (["dc:Bounds", "flowable:docker", "di:waypoint"] : List Text) &&
    key ∈ (["x", "y", "width", "height"] : List Text)

/-- A tree without its measures. -/
def hideMeasures (n : Xml.Node Text) : Xml.Node (Option Text) :=
  n.mapWith (fun name key t => if isMeasure name key then none else some t) some

/-- A value without what it measures; a measure stays where XML cannot carry it. -/
def hideMeasure (name key : Text) (d : Draft) : Option Draft :=
  if isMeasure name key && (settle d).isOk then none else some d

/-- A piece without its measures. -/
def hidden (p : Piece) : Xml.Node (Option Draft) := p.mapWith hideMeasure some

/-- A value that is known and that XML can carry, if it is not hidden. -/
def settleShown : Option Draft → Except DocumentError (Option Text)
  | none => .ok none
  | some d => (settle d).map some

/-- Measures can be hidden before the texts are settled. -/
theorem traverse_hidden (p : Piece) :
    (p.traverse settle).map hideMeasures = (hidden p).traverse settleShown := by
  have hshown : ∀ (name key : Text) (d : Draft),
      (settle d).map (fun t => if isMeasure name key then none else some t) =
        settleShown (hideMeasure name key d) := by
    intro name key d
    unfold hideMeasure
    cases isMeasure name key with
    | false => rfl
    | true =>
      cases h : settle d with
      | ok t => rfl
      | error e =>
        show _ = (settle d).map some
        rw [h]
        rfl
  exact traverse_mapWith hshown (fun _ => rfl) p

/-! ## The diagram -/

theorem hidden_node (name : Text) (attributes : List (Text × Draft)) (children : List Piece) :
    hidden (.element name attributes children) =
      .element name (attributes.map fun a => (a.1, hideMeasure name a.1 a.2))
        (children.map hidden) :=
  mapWith_element ..

theorem hidden_element (name : Text) (attributes : List (Text × Text)) (children : List Piece) :
    hidden (element name attributes children) =
      .element name (attributes.map fun a => (a.1, hideMeasure name a.1 (.ok a.2)))
        (children.map hidden) := by
  rw [element, hidden_node, List.map_map]
  rfl

variable [Coordinate α] [Legible α] [Coordinate β] [Legible β]

instance : Legible Unit := ⟨fun _ => rfl⟩

theorem hideMeasure_written {name key : Text} (h : isMeasure name key = true) (x : α) :
    hideMeasure name key (.ok (written x)) = none := by
  have hsettle : (settle (.ok (written x))).isOk = true := by
    rw [settle, if_pos (Legible.isXmlText_written x)]
    rfl
  rw [hideMeasure, h, hsettle]
  rfl

/-- Where a point lies is left out. -/
theorem hideMeasure_place {name : Text} (hx : isMeasure name "x" = true)
    (hy : isMeasure name "y" = true) (p : Point α) :
    (place p).map (fun a => (a.1, hideMeasure name a.1 (.ok a.2))) =
      ([("x", none), ("y", none)] : List (Text × Option Draft)) := by
  simp only [place, List.map_cons, List.map_nil, hideMeasure_written hx, hideMeasure_written hy]

/-- A shape without measures does not tell where its box is. -/
theorem hidden_shape (id : Text) (ref : Draft) (b : Box α) (b' : Box β) :
    hidden (shape id ref b) = hidden (shape id ref b') := by
  have hkeys : ∀ key ∈ (["height", "width", "x", "y"] : List Text),
      isMeasure "dc:Bounds" key = true := by decide
  simp only [List.forall_mem_cons] at hkeys
  obtain ⟨hheight, hwidth, hx, hy, -⟩ := hkeys
  simp only [shape, hidden_node, hidden_element, List.map_cons, List.map_nil,
    hideMeasure_written hheight, hideMeasure_written hwidth, hideMeasure_written hx,
    hideMeasure_written hy]

/-- An edge without measures tells how many points its line has. -/
theorem hidden_edge (c : Context α) (s : Sentry α) (e : Edge α) :
    hidden (edge c s e) = hidden (edge c.outline s.outline e.outline) := by
  have hdocker : ∀ key ∈ (["x", "y"] : List Text), isMeasure "flowable:docker" key = true := by
    decide
  have hwaypoint : ∀ key ∈ (["x", "y"] : List Text), isMeasure "di:waypoint" key = true := by
    decide
  simp only [List.forall_mem_cons] at hdocker hwaypoint
  unfold edge
  simp only [hidden_node, hidden_element, List.map_cons, List.map_nil, List.map_append,
    List.map_map, Function.comp_def, hideMeasure_place hdocker.1 hdocker.2.1,
    hideMeasure_place hwaypoint.1 hwaypoint.2.1, Edge.outline, c.planItemId_outline]
  rfl

theorem hidden_memberShapes (c : Context α) (members : List (Node α)) :
    (memberShapes c members).map hidden =
      (memberShapes c.outline (members.map Node.outline)).map hidden := by
  unfold memberShapes
  simp only [List.map_append, List.map_map, List.map_flatMap, List.flatMap_map, Function.comp_def,
    c.scope_outline, c.planItemId_outline, c.sentriesOf_outline, Node.slug_outline]
  refine congrArg₂ _ (List.map_congr_left fun n _ => hidden_shape ..) ?_
  exact List.flatMap_congr fun n _ => List.map_congr_left fun s _ => hidden_shape ..

theorem hidden_memberEdges (c : Context α) (members : List (Node α)) :
    (memberEdges c members).map hidden =
      (memberEdges c.outline (members.map Node.outline)).map hidden := by
  unfold memberEdges
  simp only [List.map_map, List.map_flatMap, List.flatMap_map, Function.comp_def,
    c.sentriesOf_outline]
  refine List.flatMap_congr fun n _ => List.flatMap_congr fun s _ => ?_
  rw [Sentry.outline, List.map_map]
  exact List.map_congr_left fun e _ => hidden_edge c s e

section

variable {draw : List (Node α) → List Piece} {draw' : List (Node Unit) → List Piece}

omit [Coordinate α] [Legible α]

mutual

/-- What is drawn inside nodes is drawn for outlines, if it is so for each list of members. -/
theorem hidden_insideNode
    (h : ∀ ns, (draw ns).map hidden = (draw' (ns.map Node.outline)).map hidden) :
    ∀ n : Node α, (insideNode draw n).map hidden = (insideNode draw' n.outline).map hidden
  | ⟨slug, name, kind, parent, box, children⟩ => by
    rw [insideNode_eq, insideNode_eq, Node.kind_outline, Node.children_outline]
    split
    · rw [List.map_append, List.map_append, h, hidden_insideNodes h children]
    · rfl

theorem hidden_insideNodes
    (h : ∀ ns, (draw ns).map hidden = (draw' (ns.map Node.outline)).map hidden) :
    ∀ ns : List (Node α),
      (insideNodes draw ns).map hidden = (insideNodes draw' (ns.map Node.outline)).map hidden
  | [] => rfl
  | n :: ns => by
    rw [List.map_cons, insideNodes, insideNodes, List.map_append, List.map_append,
      hidden_insideNode h n, hidden_insideNodes h ns]

end

theorem hidden_drawAll (h : ∀ ns, (draw ns).map hidden = (draw' (ns.map Node.outline)).map hidden)
    (nodes : List (Node α)) :
    (drawAll draw nodes).map hidden = (drawAll draw' (nodes.map Node.outline)).map hidden := by
  rw [drawAll, drawAll, List.map_append, List.map_append, h, hidden_insideNodes h]

end

/-- The diagram of a document is made from outlines, apart from measures. -/
theorem hidden_diagramElement (c : Context α) :
    hidden (diagramElement c) = hidden (diagramElement c.outline) := by
  have hshape : ∀ (id : Text) (ref : Draft) (b : Box α),
      hidden (shape id ref b) = hidden (shape id ref b.outline) := fun _ _ _ => hidden_shape ..
  unfold diagramElement
  simp only [hidden_element, List.map_cons, List.map_append, List.map_nil, List.cons_append, hshape,
    hidden_drawAll (hidden_memberShapes c), hidden_drawAll (hidden_memberEdges c)]
  rfl

/-! ## Documents -/

/-- Two documents that have the same case, and diagrams that differ in measures only. -/
def DifferInMeasures (prettyPrint : Bool) (s t : Text) : Prop :=
  ∃ k d d', s = render prettyPrint (.element "definitions" rootAttributes [k, d]) ∧
    t = render prettyPrint (.element "definitions" rootAttributes [k, d']) ∧
    hideMeasures d = hideMeasures d'

/-- Contexts with one outline have documents that differ in measures only, or fail alike. -/
theorem emit_of_outline_eq {c : Context α} {c' : Context β} (h : c.outline = c'.outline) :
    (∃ e, emit c = .error e ∧ emit c' = .error e) ∨
      ∃ s t, emit c = .ok s ∧ emit c' = .ok t ∧ DifferInMeasures c.config.prettyPrint s t := by
  have hlogic : c.logic = c'.logic := congrArg Context.logic h
  have hconfig : c.config = c'.config := congrArg Context.config h
  have hcase : caseElement c = caseElement c' := by
    rw [← caseElement_outline c, h, caseElement_outline c']
  have hdiagram : ((diagramElement c).traverse settle).map hideMeasures =
      ((diagramElement c').traverse settle).map hideMeasures := by
    rw [traverse_hidden, traverse_hidden, hidden_diagramElement c, h, hidden_diagramElement c']
  unfold emit
  rw [tree_eq, tree_eq, hcase, hconfig, hlogic]
  cases c'.logic.unknownApprover? with
  | some slug => exact .inl ⟨_, rfl, rfl⟩
  | none =>
    cases (caseElement c').traverse settle with
    | error e => exact .inl ⟨e, rfl, rfl⟩
    | ok k =>
      rcases map_eq_map_iff.1 hdiagram with ⟨e, hd, hd'⟩ | ⟨d, d', hd, hd', hsame⟩
      · rw [hd, hd']
        exact .inl ⟨e, rfl, rfl⟩
      · rw [hd, hd']
        exact .inr ⟨_, _, rfl, rfl, k, d, d', rfl, rfl, hsame⟩

end Document

open Document

variable {α β : Type} [Coordinate α] [Coordinate.Legible α] [Coordinate β] [Coordinate.Legible β]

/-- Two diagrams of an accepted description, its layouts among them, are routed alike, and their
documents have the same case and differ in measures only. -/
theorem route_emit_of_depicts {raw : Json} {logic : Logic} (h : Logic.parse raw = .ok logic)
    {d : Diagram α} {d' : Diagram β} (hd : d.Depicts logic) (hd' : d'.Depicts logic) (case : Case)
    (config : Config) :
    (∀ mode, ∃ layout, layOut mode logic = .ok layout ∧ layout.Depicts logic) ∧
      ∃ routed routed', route logic d = .ok routed ∧ route logic d' = .ok routed' ∧
        routed.map outlineEntry = routed'.map outlineEntry ∧
        let c : Context α := { logic, diagram := d, sentries := routed, case, config }
        let c' : Context β := { logic, diagram := d', sentries := routed', case, config }
        (∃ e, emit c = .error e ∧ emit c' = .error e) ∨
          ∃ s t, emit c = .ok s ∧ emit c' = .ok t ∧ DifferInMeasures config.prettyPrint s t := by
  have hc := consistent_of_parse h
  refine ⟨fun mode => ⟨_, Layout.layOut_eq_ok hc mode, Layout.depicts_diagram mode logic⟩, ?_⟩
  obtain ⟨routed, routed', hrouted, hrouted', hsame⟩ := route_outline_eq hd hd' hc
  refine ⟨routed, routed', hrouted, hrouted', hsame, emit_of_outline_eq ?_⟩
  simp only [Context.outline, hd.outline_eq hd', hsame]

/-- What the document of the sample is made from, in a layout. -/
def sampleContext (mode : LayoutMode) : Context Rat where
  logic := Logic.sample
  diagram := Layout.diagram mode Logic.sample
  sentries := (route Logic.sample (Layout.diagram mode Logic.sample)).toOption.getD []
  case := ⟨"c", { identifier := "a" }⟩
  config := {}

/-- The two layouts of the sample have sentries at different places. -/
theorem route_emit_sample :
    Logic.parse Logic.sampleValue = .ok Logic.sample ∧
      (Layout.diagram .alternating Logic.sample).Depicts Logic.sample ∧
      (Layout.diagram .grid Logic.sample).Depicts Logic.sample ∧
      (sampleContext .alternating).sentries ≠ (sampleContext .grid).sentries ∧
      (sampleContext .alternating).sentries.map outlineEntry =
        (sampleContext .grid).sentries.map outlineEntry ∧
      ∃ s t, emit (sampleContext .alternating) = .ok s ∧ emit (sampleContext .grid) = .ok t ∧
        DifferInMeasures true s t := by
  have hd := Layout.depicts_diagram .alternating Logic.sample
  have hd' := Layout.depicts_diagram .grid Logic.sample
  obtain ⟨-, routed, routed', hrouted, hrouted', hsame, hdocuments⟩ :=
    route_emit_of_depicts Logic.parse_sampleValue hd hd' ⟨"c", { identifier := "a" }⟩ {}
  have hne : (sampleContext .alternating).sentries ≠ (sampleContext .grid).sentries := by
    decide +kernel
  have hemit : (emit (sampleContext .alternating)).isOk = true := by
    decide +kernel
  unfold sampleContext at hne hemit ⊢
  rw [hrouted] at hemit
  rw [hrouted, hrouted'] at hne ⊢
  refine ⟨Logic.parse_sampleValue, hd, hd', hne, hsame, ?_⟩
  rcases hdocuments with ⟨e, he, -⟩ | hdocuments
  · have hemit := (congrArg Except.isOk he).symm.trans hemit
    exact absurd hemit Bool.false_ne_true
  · exact hdocuments

end CasePlan
