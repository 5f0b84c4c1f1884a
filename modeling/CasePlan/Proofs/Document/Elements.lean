import CasePlan.Proofs.Document.Context
import CasePlan.Proofs.Xml.Values
import Mathlib.Algebra.Order.Group.Multiset
import Mathlib.Tactic.Abel

/-!
# The identifiers in a document

Every element with an identifier is there for the case, for a node of the diagram, for a sentry or
for an edge of a sentry.

* `documentIds`: the identifiers in document order; `values_root`: they are those of the document.
* `Context.elementIds`: the same identifiers, those of the case first, then those of the nodes and
  those of the sentries; `perm_elementIds`.
-/

namespace CasePlan.Document

open Xml.Node

variable {α : Type} [Coordinate α]

/-! ## Names of elements -/

section

omit [Coordinate α]

/-- The identifier of a sentry. -/
def sentryId (s : Sentry α) : Text := "sentry" ++ sentryName s

/-- The identifier of what a sentry waits for, by its place. -/
def onPartId (s : Sentry α) (place : Nat) : Text :=
  "sentryOnPart" ++ sentryName s ++ "_" ++ Text.ofNat place

/-- The identifier of the shape of a sentry. -/
def sentryShapeId (s : Sentry α) : Text := "CMMNShape_planItem" ++ sentryName s

/-- The ends of an edge, as its identifier names them. -/
def edgeEnds (c : Context α) (e : Edge α) : Text :=
  (if e.source = rootContainer then c.case.mainItem else e.source) ++ "_to_" ++ e.target

/-- The identifier of an edge. -/
def edgeId (c : Context α) (s : Sentry α) (e : Edge α) : Text :=
  "CMMNEdge_sid-" ++ edgeEnds c e ++ Text.ofNat s.index

/-- The identifier of the diagram. -/
def diagramId (c : Context α) : Text := "CMMNDiagram_" ++ c.case.id

/-- The main stage of a document. -/
def mainStage (c : Context α) : Piece :=
  element "stage" [("id", c.case.mainStageId), ("name", c.case.id)] (stageContent c c.diagram.nodes)

/-- The plan model of a document. -/
def planModel (c : Context α) : Piece :=
  element "casePlanModel"
    [("id", c.case.planModelId), ("flowable:formKey", ""), ("flowable:formFieldValidation", "true")]
    [element "planItem"
        [("id", Identifier.planItemId c.case.mainItem), ("name", c.case.mainItem),
          ("definitionRef", c.case.mainStageId)] [],
      mainStage c]

/-- What the identifiers of a node end with. -/
def scopedName (c : Context α) (n : Node α) : Text := c.scope n ++ n.slug

/-- The identifier of the plan item of a node. -/
def nodeItemId (c : Context α) (n : Node α) : Text :=
  Identifier.planItemId (if n.slug = rootContainer then c.case.mainItem else scopedName c n)

/-- The identifiers of a sentry and of what it waits for. -/
def sentryIds (s : Sentry α) : List Text :=
  sentryId s :: (List.range s.edges.length).map (onPartId s)

/-- The identifiers of the elements that are there for a sentry. -/
def generatedIds (c : Context α) (s : Sentry α) : List Text :=
  criterionId s :: sentryShapeId s :: sentryIds s ++ s.edges.map (edgeId c s)

/-- The identifiers of the elements that are there for a node. -/
def nodeIds (c : Context α) (n : Node α) : List Text :=
  [nodeItemId c n, Identifier.shapeId (scopedName c n), c.definitionId n]

/-- The identifiers of the elements that are there for the case and that are listed. -/
def scaffoldIds (c : Context α) : List Text :=
  [c.case.planModelId, Identifier.shapeId c.case.name, c.case.mainStageId,
    Identifier.planItemId c.case.mainItem, Identifier.shapeId c.case.mainItem]

/-- The identifiers of all elements. -/
def elementIds (c : Context α) : List Text :=
  c.case.id :: diagramId c :: scaffoldIds c ++ c.diagram.inOrder.flatMap (nodeIds c) ++
    (c.diagram.inOrder.flatMap c.sentriesOf).flatMap (generatedIds c)

/-! ## Identifiers in document order -/

/-- The identifiers of plan items and sentries in a stage with some members. -/
def memberIds (c : Context α) (members : List (Node α)) : List Text :=
  members.flatMap (fun n => nodeItemId c n :: (c.sentriesOf n).map criterionId) ++
    members.flatMap fun n => (c.sentriesOf n).flatMap sentryIds

/-- The identifiers of the human tasks among some nodes. -/
def taskIds (c : Context α) (members : List (Node α)) : List Text :=
  (members.filter (·.kind = .task)).map c.definitionId

/-- The identifiers in the nested stage of a node. -/
def nestedIds (c : Context α) (n : Node α) : List Text :=
  if n.kind = .stage then
    Identifier.stageId n.slug :: memberIds c n.children ++ taskIds c n.children
  else []

/-- The identifiers of the shapes of some nodes. -/
def shapeIds (c : Context α) (members : List (Node α)) : List Text :=
  members.map (fun n => Identifier.shapeId (scopedName c n)) ++
    members.flatMap fun n => (c.sentriesOf n).map sentryShapeId

/-- The identifiers of the edges that lead to some nodes. -/
def edgeIds (c : Context α) (members : List (Node α)) : List Text :=
  members.flatMap fun n => (c.sentriesOf n).flatMap fun s => s.edges.map (edgeId c s)

/-- What is collected from some nodes and from the stages among them. -/
def throughout (collect : List (Node α) → List Text) (nodes : List (Node α)) : List Text :=
  collect nodes ++ nodes.flatMap fun n => if n.kind = .stage then collect n.children else []

/-- The identifiers in a document, in order. -/
def documentIds (c : Context α) : List Text :=
  [c.case.id, c.case.planModelId, Identifier.planItemId c.case.mainItem, c.case.mainStageId] ++
    (memberIds c c.diagram.nodes ++ c.diagram.nodes.flatMap (nestedIds c) ++
      taskIds c c.diagram.nodes) ++
    [diagramId c, Identifier.shapeId c.case.name, Identifier.shapeId c.case.mainItem] ++
    throughout (shapeIds c) c.diagram.nodes ++ throughout (edgeIds c) c.diagram.nodes

end

/-! ## They are those of the document -/

variable {c : Context α} {n : Node α}

theorem planItemId_eq (hs : c.Routed) (hn : n ∈ c.diagram.inOrder) :
    c.planItemId n.slug = .ok (nodeItemId c n) := by
  unfold Context.planItemId nodeItemId
  rw [hs.diagram.find?_of_mem hs.logic (c.diagram.perm_inOrder.mem_iff.1 hn)]
  split <;> rfl

omit [Coordinate α] in
theorem values_known (name other : Text) (attributes : List (Text × Text)) (children : List Piece) :
    values name (element other attributes children) =
      (valuesIn name attributes).map .ok ++ children.flatMap (values name) := by
  have hknown : valuesIn name (attributes.map fun x => (x.1, (Except.ok x.2 : Draft))) =
      (valuesIn name attributes).map .ok := by
    induction attributes with
    | nil => rfl
    | cons a as ih =>
      rw [List.map_cons, valuesIn_cons, valuesIn_cons, ih]
      split <;> rfl
  rw [← hknown, ← values_element]
  rfl

/-- A plan item with its entry criteria; its repetition rule has no identifiers. -/
theorem values_planItem (hs : c.Routed) (hn : n ∈ c.diagram.inOrder) :
    values "id" (planItem c n) =
      (nodeItemId c n :: (c.sentriesOf n).map criterionId).map .ok := by
  have hrule : List.flatMap (values "id")
      (if repeats c n then [repetitionRule c n.slug] else []) = [] := by
    split <;> rfl
  have hcriteria : ∀ s : Sentry α, values "id" (element "entryCriterion"
      [("id", criterionId s), ("sentryRef", "sentry" ++ sentryName s)] []) =
        [.ok (criterionId s)] := fun _ => rfl
  unfold planItem
  rw [values_element, List.flatMap_append, hrule, List.flatMap_map, planItemId_eq hs hn]
  simp only [hcriteria, List.nil_append, ← List.map_eq_flatMap]
  rw [List.map_cons, List.map_map]
  rfl

omit [Coordinate α] in
/-- A sentry with what it waits for; its condition has no identifiers. -/
theorem values_sentry (c : Context α) (s : Sentry α) :
    values "id" (sentry c s) = (sentryIds s).map .ok := by
  have hplaces : s.edges.zipIdx.map Prod.snd = List.range s.edges.length := by
    rw [List.zipIdx_map_snd, List.range_eq_range']
  have hif : values "id" (element "ifPart" [] [element "condition" []
      (if s.condition.isEmpty then [] else [Xml.Node.cdata (.ok s.condition)])]) = [] := by
    split <;> rfl
  have honPart : ∀ x : Edge α × Nat, values "id" (Xml.Node.element "planItemOnPart"
      [("id", .ok (onPartId s x.2)), ("sourceRef", c.planItemId x.1.source)]
      [element "standardEvent" [] [.text (.ok x.1.event.word)]]) = [.ok (onPartId s x.2)] :=
    fun _ => rfl
  unfold sentry
  rw [values_known, List.flatMap_append, List.flatMap_map, List.flatMap_singleton, hif]
  show _ ++ ((s.edges.zipIdx.flatMap fun x => values "id" _) ++ []) = _
  simp only [onPartId] at honPart
  simp only [honPart, ← List.map_eq_flatMap]
  rw [List.append_nil, sentryIds, List.map_cons, List.map_map, ← hplaces, List.map_map]
  rfl

omit [Coordinate α] in
theorem valuesIn_optionalAttribute {name other : Text} (h : other ≠ name) (value : Option Text) :
    valuesIn name (optionalAttribute other value) = [] := by
  unfold optionalAttribute
  split
  · rw [valuesIn_cons, if_neg h]
    rfl
  · rfl

/-- The task that a node stands for is found. -/
theorem exists_task? (hs : c.Routed) (hn : n ∈ c.diagram.inOrder) (hk : n.kind = .task) :
    ∃ t ∈ c.logic.tasks, c.logic.task? n.slug = some t := by
  rcases hs.diagram.shows_of_mem hs.logic hn with ⟨s, -, h⟩ | ⟨t, ht, h⟩
  · rw [h.kind] at hk
    exact absurd hk (by decide)
  · rw [h.slug]
    exact ⟨t, ht, hs.logic.task?_eq_some ht⟩

/-- The human task of a node. -/
theorem values_humanTask (hs : c.Routed) (hn : n ∈ c.diagram.inOrder) (hk : n.kind = .task) :
    values "id" (humanTask c n) = [.ok (c.definitionId n)] := by
  obtain ⟨t, -, ht⟩ := exists_task? hs hn hk
  have hgroups : ("flowable:candidateGroups" : Text) ≠ "id" := by decide
  have hdue : ("flowable:dueDate" : Text) ≠ "id" := by decide
  unfold humanTask
  rw [ht]
  simp only
  rw [values_known, humanTaskAttributes]
  simp only [valuesIn_append, valuesIn_optionalAttribute hgroups, valuesIn_optionalAttribute hdue]
  rfl

/-! ### Stages -/

omit [Coordinate α] in
theorem nestedStage_eq (c : Context α) (n : Node α) :
    nestedStage c n =
      if n.kind = .stage then
        [element "stage" [("id", Identifier.stageId n.slug), ("name", n.name)]
          (stageContentWith c n.children (nestedStages c n.children))]
      else [] := by
  cases n
  rfl

omit [Coordinate α] in
theorem nestedStages_eq_flatMap (c : Context α) (ns : List (Node α)) :
    nestedStages c ns = ns.flatMap (nestedStage c) := by
  induction ns with
  | nil => rfl
  | cons n ns ih => rw [nestedStages, ih, List.flatMap_cons]

omit [Coordinate α] in
theorem nestedStages_eq_nil (c : Context α) {ns : List (Node α)} (h : ∀ n ∈ ns, n.kind = .task) :
    nestedStages c ns = [] := by
  rw [nestedStages_eq_flatMap, List.flatMap_eq_nil_iff]
  intro n hn
  rw [nestedStage_eq, h n hn]
  rfl

omit [Coordinate α] in
theorem insideNode_eq (draw : List (Node α) → List Piece) (n : Node α) :
    insideNode draw n =
      if n.kind = .stage then draw n.children ++ insideNodes draw n.children else [] := by
  cases n
  rfl

omit [Coordinate α] in
theorem insideNodes_eq_flatMap (draw : List (Node α) → List Piece) (ns : List (Node α)) :
    insideNodes draw ns = ns.flatMap (insideNode draw) := by
  induction ns with
  | nil => rfl
  | cons n ns ih => rw [insideNodes, ih, List.flatMap_cons]

omit [Coordinate α] in
theorem insideNodes_eq_nil (draw : List (Node α) → List Piece) {ns : List (Node α)}
    (h : ∀ n ∈ ns, n.kind = .task) : insideNodes draw ns = [] := by
  rw [insideNodes_eq_flatMap, List.flatMap_eq_nil_iff]
  intro n hn
  rw [insideNode_eq, h n hn]
  rfl

/-- The tasks of a stage hold nothing further. -/
theorem kind_of_mem_children (hs : c.Routed) {m : Node α} (hn : n ∈ c.diagram.nodes)
    (hm : m ∈ n.children) : m.kind = .task := by
  obtain ⟨member, h⟩ := hs.diagram.showsMember hn hm
  exact h.kind

/-- The content of a stage, with the identifiers of the nested stages between its own. -/
theorem values_stageContentWith (hs : c.Routed) {members : List (Node α)}
    (hmem : ∀ n ∈ members, n ∈ c.diagram.inOrder) (nested : List Piece) :
    (stageContentWith c members nested).flatMap (values "id") =
      (memberIds c members).map .ok ++ nested.flatMap (values "id") ++
        (taskIds c members).map .ok := by
  have hitems : members.flatMap (fun n => values "id" (planItem c n)) =
      (members.flatMap fun n => nodeItemId c n :: (c.sentriesOf n).map criterionId).map .ok := by
    rw [List.map_flatMap]
    exact List.flatMap_congr fun n hn => values_planItem hs (hmem n hn)
  have hsentries : members.flatMap (fun n => ((c.sentriesOf n).map (sentry c)).flatMap (values "id")) =
      (members.flatMap fun n => (c.sentriesOf n).flatMap sentryIds).map .ok := by
    simp only [List.map_flatMap, List.flatMap_map, values_sentry]
  have htasks : (members.filter (·.kind = .task)).flatMap (fun n => values "id" (humanTask c n)) =
      (taskIds c members).map .ok := by
    rw [taskIds, List.map_map, List.map_eq_flatMap]
    refine List.flatMap_congr fun n hn => ?_
    obtain ⟨hn, hk⟩ := List.mem_filter.1 hn
    exact values_humanTask hs (hmem n hn) (of_decide_eq_true hk)
  unfold stageContentWith
  simp only [List.flatMap_append, List.flatMap_cons, List.flatMap_map, List.flatMap_assoc]
  simp only [List.flatMap_map] at hsentries
  rw [hitems, hsentries, htasks, memberIds, List.map_append]
  rfl

theorem values_nestedStage (hs : c.Routed) (hn : n ∈ c.diagram.nodes) :
    (nestedStage c n).flatMap (values "id") = (nestedIds c n).map .ok := by
  have hmem : ∀ m ∈ n.children, m ∈ c.diagram.inOrder :=
    fun m hm => Diagram.mem_inOrder.2 (.inr ⟨n, hn, hm⟩)
  rw [nestedStage_eq, nestedIds]
  split
  · rw [nestedStages_eq_nil c fun m hm => kind_of_mem_children hs hn hm, List.flatMap_singleton,
      values_known, values_stageContentWith hs hmem, List.flatMap_nil, List.append_nil,
      ← List.map_append]
    rfl
  · rfl

theorem values_caseElement (hs : c.Routed) :
    values "id" (caseElement c) =
      ([c.case.id, c.case.planModelId, Identifier.planItemId c.case.mainItem, c.case.mainStageId] ++
        (memberIds c c.diagram.nodes ++ c.diagram.nodes.flatMap (nestedIds c) ++
          taskIds c c.diagram.nodes)).map .ok := by
  have hmem : ∀ n ∈ c.diagram.nodes, n ∈ c.diagram.inOrder :=
    fun n hn => Diagram.mem_inOrder.2 (.inl hn)
  have hnested : (nestedStages c c.diagram.nodes).flatMap (values "id") =
      (c.diagram.nodes.flatMap (nestedIds c)).map .ok := by
    rw [nestedStages_eq_flatMap, List.flatMap_assoc, List.map_flatMap]
    exact List.flatMap_congr fun n hn => values_nestedStage hs hn
  unfold caseElement stageContent
  simp only [values_known, List.flatMap_cons, List.flatMap_nil, List.append_nil,
    values_stageContentWith hs hmem, hnested, ← List.map_append]
  rfl

/-! ### The diagram -/

theorem values_shape (id : Text) (ref : Draft) (b : Box α) :
    values "id" (shape id ref b) = [.ok id] := rfl

theorem values_memberShapes (c : Context α) (members : List (Node α)) :
    (memberShapes c members).flatMap (values "id") = (shapeIds c members).map .ok := by
  unfold memberShapes shapeIds
  simp only [List.flatMap_append, List.flatMap_map, List.flatMap_assoc, values_shape,
    ← List.map_eq_flatMap, List.map_append, List.map_flatMap, List.map_map]
  rfl

theorem values_edge (c : Context α) (s : Sentry α) (e : Edge α) :
    values "id" (edge c s e) = [.ok (edgeId c s e)] := by
  have hpoints : (e.waypoints.map fun p => element "di:waypoint" (place p) []).flatMap
      (values "id") = [] := by
    rw [List.flatMap_map, List.flatMap_eq_nil_iff]
    exact fun _ _ => rfl
  unfold edge
  rw [values_element, List.flatMap_append, List.flatMap_cons, hpoints, edgeId, edgeEnds]
  simp only [List.append_assoc]
  rfl

theorem values_memberEdges (c : Context α) (members : List (Node α)) :
    (memberEdges c members).flatMap (values "id") = (edgeIds c members).map .ok := by
  unfold memberEdges edgeIds
  simp only [List.flatMap_map, List.flatMap_assoc, values_edge, ← List.map_eq_flatMap,
    List.map_flatMap, List.map_map]
  rfl

/-- What is drawn for the nodes at the top is drawn again for the tasks of the stages among them. -/
theorem drawAll_eq (hs : c.Routed) (draw : List (Node α) → List Piece) :
    drawAll draw c.diagram.nodes =
      draw c.diagram.nodes ++
        c.diagram.nodes.flatMap fun n => if n.kind = .stage then draw n.children else [] := by
  rw [drawAll, insideNodes_eq_flatMap]
  refine congrArg _ (List.flatMap_congr fun n hn => ?_)
  rw [insideNode_eq, insideNodes_eq_nil draw fun m hm => kind_of_mem_children hs hn hm,
    List.append_nil]

/-- What holds of all that is drawn for nodes of the diagram. -/
theorem forall_mem_drawAll (hs : c.Routed) {draw : List (Node α) → List Piece} {P : Piece → Prop}
    (h : ∀ ns, (∀ n ∈ ns, n ∈ c.diagram.inOrder) → ∀ k ∈ draw ns, P k) :
    ∀ k ∈ drawAll draw c.diagram.nodes, P k := by
  rw [drawAll_eq hs, List.forall_mem_append, List.forall_mem_flatMap]
  refine ⟨h _ fun n hn => Diagram.mem_inOrder.2 (.inl hn), fun n hn k hk => ?_⟩
  split at hk
  · exact h _ (fun m hm => Diagram.mem_inOrder.2 (.inr ⟨n, hn, hm⟩)) k hk
  · exact absurd hk List.not_mem_nil

theorem values_drawAll (hs : c.Routed) {draw : List (Node α) → List Piece}
    {collect : List (Node α) → List Text}
    (h : ∀ ns, (draw ns).flatMap (values "id") = (collect ns).map .ok) :
    (drawAll draw c.diagram.nodes).flatMap (values "id") =
      (throughout collect c.diagram.nodes).map .ok := by
  rw [drawAll_eq hs, throughout, List.flatMap_append, h, List.map_append, List.flatMap_assoc,
    List.map_flatMap]
  refine congrArg _ (List.flatMap_congr fun n _ => ?_)
  split
  · exact h _
  · rfl

theorem values_diagramElement (hs : c.Routed) :
    values "id" (diagramElement c) =
      ([diagramId c, Identifier.shapeId c.case.name, Identifier.shapeId c.case.mainItem] ++
        throughout (shapeIds c) c.diagram.nodes ++
        throughout (edgeIds c) c.diagram.nodes).map .ok := by
  unfold diagramElement
  simp only [values_known, List.flatMap_cons, List.flatMap_nil, List.append_nil, List.flatMap_append,
    values_shape, values_drawAll hs (values_memberShapes c),
    values_drawAll hs (values_memberEdges c), List.map_append]
  simp only [List.append_assoc]
  rfl

theorem values_root (hs : c.Routed) : values "id" (root c) = (documentIds c).map .ok := by
  unfold root
  simp only [values_known, List.flatMap_cons, List.flatMap_nil, List.append_nil,
    values_caseElement hs, values_diagramElement hs, ← List.map_append]
  rw [documentIds]
  simp only [List.append_assoc]
  rfl

/-! ## The same identifiers, for one element after another -/

omit [Coordinate α] in
/-- What two functions collect from nodes, counted together. -/
theorem coe_flatMap_append {β γ : Type} (f g : β → List γ) (l : List β) :
    ((l.flatMap fun x => f x ++ g x : List γ) : Multiset γ) =
      (l.flatMap f : List γ) + (l.flatMap g : List γ) := by
  rw [Multiset.coe_add]
  exact Multiset.coe_eq_coe.2 (List.flatMap_append_perm l f g).symm

omit [Coordinate α] in
/-- The top of a diagram and what is in it, counted together. -/
theorem flatMap_inOrder {β : Type} (d : Diagram α) (f : Node α → List β) :
    d.inOrder.flatMap f = d.nodes.flatMap f ++ (d.nodes.flatMap (·.children)).flatMap f := by
  rw [Diagram.inOrder, List.flatMap_append]

/-- A task at the top holds nothing. -/
theorem children_eq_nil (hs : c.Routed) (hn : n ∈ c.diagram.nodes) (hk : n.kind = .task) :
    n.children = [] := by
  rcases hs.diagram.shows_of_mem hs.logic (Diagram.mem_inOrder.2 (.inl hn)) with
    ⟨s, -, h⟩ | ⟨t, -, h⟩
  · rw [h.kind] at hk
    exact absurd hk (by simp)
  · exact h.children

theorem taskIds_children (hs : c.Routed) (hn : n ∈ c.diagram.nodes) :
    taskIds c n.children = n.children.flatMap fun m => [c.definitionId m] := by
  rw [taskIds, List.filter_eq_self.2 fun m hm => by simp [kind_of_mem_children hs hn hm],
    List.map_eq_flatMap]

/-- What is collected from the stages among the nodes at the top is collected from what is in
them. -/
theorem flatMap_ite_stage {γ : Type} (hs : c.Routed) (collect : List (Node α) → List γ)
    (hnil : collect [] = []) :
    (c.diagram.nodes.flatMap fun n => if n.kind = .stage then collect n.children else []) =
      c.diagram.nodes.flatMap fun n => collect n.children := by
  refine List.flatMap_congr fun n hn => ?_
  cases hk : n.kind with
  | stage => rfl
  | task => rw [children_eq_nil hs hn hk, hnil, if_neg (by simp)]

omit [Coordinate α] in
/-- What nodes are defined by are the stages and the tasks. -/
theorem perm_definitionIds (c : Context α) (ns : List (Node α)) :
    ((ns.flatMap fun n => if n.kind = .stage then [Identifier.stageId n.slug] else []) ++
      taskIds c ns).Perm (ns.flatMap fun n => [c.definitionId n]) := by
  have htasks : taskIds c ns = ns.flatMap fun n =>
      if n.kind = .task then [c.definitionId n] else [] := by
    rw [taskIds]
    induction ns with
    | nil => rfl
    | cons n ns ih => cases hk : n.kind <;> simp [hk, ih]
  rw [htasks]
  refine (List.flatMap_append_perm ..).trans (List.Perm.of_eq (List.flatMap_congr fun n _ => ?_))
  cases hk : n.kind <;> simp [Context.definitionId, hk]

theorem perm_elementIds (hs : c.Routed) : (documentIds c).Perm (elementIds c) := by
  have hnested : c.diagram.nodes.flatMap (nestedIds c) = c.diagram.nodes.flatMap fun n =>
      (if n.kind = .stage then [Identifier.stageId n.slug] else []) ++
        (memberIds c n.children ++ n.children.flatMap fun m => [c.definitionId m]) := by
    refine List.flatMap_congr fun n hn => ?_
    rw [nestedIds, taskIds_children hs hn]
    cases hk : n.kind with
    | stage => rfl
    | task =>
      rw [children_eq_nil hs hn hk]
      rfl
  have hshapes := flatMap_ite_stage hs (shapeIds c) rfl
  have hedges := flatMap_ite_stage hs (edgeIds c) rfl
  have hitem : ∀ n, nodeItemId c n :: ((c.sentriesOf n).flatMap fun s => [criterionId s]) =
      [nodeItemId c n] ++ (c.sentriesOf n).flatMap fun s => [criterionId s] := fun _ => rfl
  have hnode : nodeIds c = fun n =>
      [nodeItemId c n] ++ [Identifier.shapeId (scopedName c n)] ++ [c.definitionId n] := rfl
  have hgenerated : generatedIds c = fun s =>
      [criterionId s] ++ [sentryShapeId s] ++ sentryIds s ++ s.edges.map (edgeId c s) := rfl
  have hcase : ∀ s t u v w x y : Text, (([s, t, u, v, w, x, y] : List Text) : Multiset Text) =
      ([s, u, x, w] : List Text) + ([t, v, y] : List Text) := by
    intros
    simp only [← Multiset.cons_coe, ← Multiset.singleton_add, Multiset.coe_nil]
    abel
  have hdef := Multiset.coe_eq_coe.2 (perm_definitionIds c c.diagram.nodes)
  rw [← Multiset.coe_add] at hdef
  rw [← Multiset.coe_eq_coe, documentIds, throughout, throughout, hshapes, hedges, hnested,
    elementIds, hnode, hgenerated]
  simp only [flatMap_inOrder, memberIds, shapeIds, edgeIds, List.map_eq_flatMap, hitem,
    List.flatMap_append, coe_flatMap_append, ← Multiset.coe_add, ← List.flatMap_assoc, ← hdef,
    scaffoldIds, hcase]
  abel

end CasePlan.Document
