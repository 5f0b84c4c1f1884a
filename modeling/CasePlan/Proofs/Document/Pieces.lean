import CasePlan.Proofs.Document.Collision
import CasePlan.Proofs.Xml.Selection

/-!
# The elements of documents by name

Which elements of a document have the names of plan items, criteria, sentries, stages, shapes and
edges, in document order.

* `uses_planItem`, `uses_sentry`, `uses_humanTask`: the names of elements inside the pieces.
* `select_planItem_root`, `select_entryCriterion_root`, `select_sentry_root`,
  `select_onPart_root`, `select_stage_root`, `select_humanTask_root`: the elements of the
  case.
* `select_shape_root`, `select_edge_root`: those of the diagram.
* `parent_of_planItem`: plan items stand in the plan model and in stages.
-/

namespace CasePlan.Document

open Xml Xml.Node

variable {α : Type}

/-! ## Pieces -/

/-- The main plan item of a document. -/
def mainItem (c : Context α) : Piece :=
  element "planItem"
    [("id", Identifier.planItemId c.case.mainItem), ("name", c.case.mainItem),
      ("definitionRef", c.case.mainStageId)] []

/-- The entry criterion that refers to a sentry. -/
def criterion (s : Sentry α) : Piece :=
  element "entryCriterion" [("id", criterionId s), ("sentryRef", sentryId s)] []

/-- What a sentry waits for at a place. -/
def onPart (c : Context α) (s : Sentry α) (x : Edge α × Nat) : Piece :=
  .element "planItemOnPart" [("id", .ok (onPartId s x.2)), ("sourceRef", c.planItemId x.1.source)]
    [element "standardEvent" [] [.text (.ok x.1.event.word)]]

/-- All that a sentry waits for. -/
def onParts (c : Context α) (s : Sentry α) : List Piece := s.edges.zipIdx.map (onPart c s)

/-- The condition of a sentry. -/
def ifPart (s : Sentry α) : Piece :=
  element "ifPart" []
    [element "condition" [] (if s.condition.isEmpty then [] else [.cdata (.ok s.condition)])]

theorem sentry_eq (c : Context α) (s : Sentry α) :
    sentry c s = element "sentry" [("id", sentryId s)] (onParts c s ++ [ifPart s]) := rfl

/-! ## Names of elements -/

/-- The names of elements in repetition rules. -/
@[simp] def ruleNames : List Text :=
  ["itemControl", "repetitionRule", "extensionElements", "condition"]

/-- The names of elements in plan items. -/
@[simp] def itemNames : List Text := "entryCriterion" :: ruleNames

/-- The names of elements in what sentries wait for. -/
@[simp] def eventNames : List Text := ["standardEvent"]

/-- The names of elements in conditions of sentries. -/
@[simp] def conditionNames : List Text := ["ifPart", "condition"]

/-- The names of elements in sentries. -/
@[simp] def sentryNames : List Text := "planItemOnPart" :: (eventNames ++ conditionNames)

/-- The names of elements in human tasks. -/
@[simp] def listenerNames : List Text :=
  ["extensionElements", "modeler:flowable-idm-initiator", "flowable:taskListener",
    "flowable:field", "flowable:string"]

/-- The names of human tasks and of elements in them. -/
@[simp] def taskNames : List Text := "humanTask" :: listenerNames

theorem uses_stageExtensions :
    stageExtensions.Uses ["extensionElements", "flowable:planItemLifecycleListener"] :=
  uses_element (by simp) (List.forall_mem_singleton.2
    (uses_element (by simp) (List.forall_mem_nil _)))

theorem uses_repetitionRule (c : Context α) (slug : Text) :
    (repetitionRule c slug).Uses ruleNames := by
  refine uses_element (by simp) (List.forall_mem_singleton.2 (uses_element (by simp) ?_))
  exact List.forall_mem_cons.2 ⟨uses_element (by simp) (List.forall_mem_nil _),
    List.forall_mem_singleton.2
      (uses_element (by simp) (List.forall_mem_singleton.2 (uses_cdata _ _)))⟩

theorem uses_criterion (s : Sentry α) : (criterion s).Uses itemNames :=
  uses_element (by simp) (List.forall_mem_nil _)

/-- In a plan item stand a repetition rule and entry criteria. -/
theorem uses_planItem (c : Context α) (n : Node α) :
    ∀ k ∈ (planItem c n).children, k.Uses itemNames := by
  intro k hk
  rcases List.mem_append.1 hk with hk | hk
  · split at hk
    · rw [List.mem_singleton.1 hk]
      exact (uses_repetitionRule c n.slug).mono (List.subset_cons_self ..)
    · exact absurd hk List.not_mem_nil
  · obtain ⟨s, -, rfl⟩ := List.mem_map.1 hk
    exact uses_criterion s

/-- In what a sentry waits for stands the event. -/
theorem uses_onPart (c : Context α) (s : Sentry α) (x : Edge α × Nat) :
    ∀ k ∈ (onPart c s x).children, k.Uses eventNames :=
  List.forall_mem_singleton.2
    (uses_element (by simp) (List.forall_mem_singleton.2 (uses_text _ _)))

theorem uses_ifPart (s : Sentry α) : (ifPart s).Uses conditionNames := by
  refine uses_element (by simp) (List.forall_mem_singleton.2 (uses_element (by simp) ?_))
  intro k hk
  split at hk
  · exact absurd hk List.not_mem_nil
  · rw [List.mem_singleton.1 hk]
    exact uses_cdata _ _

/-- In a sentry stand what it waits for and its condition. -/
theorem uses_sentry (c : Context α) (s : Sentry α) :
    ∀ k ∈ (sentry c s).children, k.Uses sentryNames := by
  intro k hk
  rcases List.mem_append.1 hk with hk | hk
  · obtain ⟨x, -, rfl⟩ := List.mem_map.1 hk
    exact uses_element (by simp) fun k hk => (uses_onPart c s x k hk).mono (by simp)
  · rw [List.mem_singleton.1 hk]
    exact (uses_ifPart s).mono (by simp)

/-- In a human task stand its listeners. -/
theorem exists_humanTask (c : Context α) (n : Node α) : ∃ attributes children,
    humanTask c n = .element "humanTask" attributes children ∧
      ∀ k ∈ children, k.Uses listenerNames := by
  have hlistener : ∀ (event class? : Text) (children : List Piece),
      (∀ k ∈ children, k.Uses listenerNames) →
        (taskListener event class? children).Uses listenerNames :=
    fun _ _ _ h => uses_element (by simp) h
  unfold humanTask
  split
  · exact ⟨_, _, rfl, List.forall_mem_nil _⟩
  · refine ⟨_, _, rfl, List.forall_mem_singleton.2 (uses_element (by simp) ?_)⟩
    simp only [List.forall_mem_cons, List.not_mem_nil, false_implies, implies_true, and_true]
    refine ⟨uses_element (by simp) (List.forall_mem_singleton.2 (uses_cdata _ _)),
      hlistener _ _ _ (List.forall_mem_nil _), hlistener _ _ _ (List.forall_mem_singleton.2 ?_),
      hlistener _ _ _ (List.forall_mem_nil _)⟩
    exact uses_element (by simp) (List.forall_mem_singleton.2
      (uses_element (by simp) (List.forall_mem_singleton.2 (uses_cdata _ _))))

theorem uses_humanTask (c : Context α) (n : Node α) : (humanTask c n).Uses taskNames := by
  obtain ⟨attributes, children, hpiece, h⟩ := exists_humanTask c n
  rw [hpiece]
  exact uses_element (by simp) fun k hk => (h k hk).mono (List.subset_cons_self ..)

theorem select_humanTask (c : Context α) (n : Node α) :
    (humanTask c n).select "humanTask" = [humanTask c n] := by
  obtain ⟨attributes, children, hpiece, h⟩ := exists_humanTask c n
  rw [hpiece]
  exact select_eq_singleton (by simp) h

/-! ## Stages -/

/-- What is selected from the plan items of some nodes and from their sentries. -/
def selectMembers (name : Text) (c : Context α) (members : List (Node α)) : List Piece :=
  members.flatMap (fun n => (planItem c n).select name) ++
    members.flatMap fun n => (c.sentriesOf n).flatMap fun s => (sentry c s).select name

/-- The names of elements that stand in a stage besides plan items, sentries and stages. -/
@[simp] def otherNames : List Text := "flowable:planItemLifecycleListener" :: taskNames

/-- What is selected from the content of a stage. -/
theorem select_stageContentWith {name : Text} (hname : name ∉ otherNames) (c : Context α)
    (members : List (Node α)) (nested : List Piece) :
    (stageContentWith c members nested).flatMap (select name) =
      selectMembers name c members ++ nested.flatMap (select name) := by
  have hextensions : stageExtensions.select name = [] :=
    (uses_stageExtensions.mono (by simp)).select_eq_nil hname
  have htasks : ∀ ns : List (Node α), ns.flatMap (fun n => (humanTask c n).select name) = [] :=
    fun ns => List.flatMap_eq_nil_iff.2 fun n _ =>
      ((uses_humanTask c n).mono (List.subset_cons_self ..)).select_eq_nil hname
  unfold stageContentWith selectMembers
  simp only [List.flatMap_append, List.flatMap_cons, List.flatMap_map, List.flatMap_assoc,
    hextensions, htasks, List.nil_append, List.append_nil]

/-- The names of plan items, of sentries, and of elements in them. -/
@[simp] def memberNames : List Text := "planItem" :: "sentry" :: (itemNames ++ sentryNames)

/-- Other names are not selected from plan items and sentries. -/
theorem selectMembers_eq_nil {name : Text} (hname : name ∉ memberNames) (c : Context α)
    (ns : List (Node α)) : selectMembers name c ns = [] := by
  have hitem : ∀ n : Node α, (planItem c n).select name = [] := by
    intro n
    refine Uses.select_eq_nil (uses_element (by simp) fun k hk => ?_) hname
    exact (uses_planItem c n k hk).mono (by simp)
  have hsentry : ∀ s : Sentry α, (sentry c s).select name = [] := by
    intro s
    refine Uses.select_eq_nil (uses_element (by simp) fun k hk => ?_) hname
    exact (uses_sentry c s k hk).mono (by simp)
  simp [selectMembers, hitem, hsentry]

/-- The human tasks in the content of a stage. -/
theorem select_humanTask_stageContentWith (c : Context α) (members : List (Node α))
    (nested : List Piece) :
    (stageContentWith c members nested).flatMap (select "humanTask") =
      nested.flatMap (select "humanTask") ++
        (members.filter (·.kind = .task)).map (humanTask c) := by
  have hextensions : stageExtensions.select "humanTask" = [] :=
    uses_stageExtensions.select_eq_nil (by simp)
  have hmembers : selectMembers "humanTask" c members = [] :=
    selectMembers_eq_nil (by simp) c members
  rw [selectMembers, List.append_eq_nil_iff] at hmembers
  unfold stageContentWith
  simp only [List.flatMap_append, List.flatMap_cons, List.flatMap_map, List.flatMap_assoc,
    hextensions, hmembers.1, hmembers.2, select_humanTask, List.nil_append,
    ← List.map_eq_flatMap]

theorem select_mainItem_eq_nil {name : Text} (hname : name ∉ memberNames) (c : Context α) :
    (mainItem c).select name = [] :=
  Uses.select_eq_nil (uses_element (by simp) (List.forall_mem_nil _)) hname

/-- What is selected from the case. -/
theorem select_caseElement_eq (c : Context α) (name : Text) :
    (caseElement c).select name =
      (if "case" = name then [caseElement c] else []) ++
        ((if "casePlanModel" = name then [planModel c] else []) ++
          ((mainItem c).select name ++ (mainStage c).select name)) := by
  have hmodel : (planModel c).select name =
      (if "casePlanModel" = name then [planModel c] else []) ++
        ((mainItem c).select name ++ (mainStage c).select name) := by
    rw [planModel, element, select_element, List.flatMap_cons, List.flatMap_singleton]
    rfl
  rw [← hmodel, caseElement, element, select_element, List.flatMap_singleton]
  rfl

variable [Coordinate α] {c : Context α} {name : Text}

/-- The nested stage of a node that is one. -/
def nestedStageOf (c : Context α) (n : Node α) : Piece :=
  element "stage" [("id", Identifier.stageId n.slug), ("name", n.name)]
    (stageContentWith c n.children [])

/-- Stages hold tasks, so they hold no stages. -/
theorem nestedStage_eq_nestedStageOf (hs : c.Routed) {n : Node α} (hn : n ∈ c.diagram.nodes) :
    nestedStage c n = if n.kind = .stage then [nestedStageOf c n] else [] := by
  rw [nestedStage_eq, nestedStages_eq_nil c fun m hm => kind_of_mem_children hs hn hm]
  rfl

/-- The names of the case, its plan model and its stages, and of what stands in them besides plan
items and sentries. -/
@[simp] def frameNames : List Text := "case" :: "casePlanModel" :: "stage" :: otherNames

/-- What is selected from the main stage. -/
theorem select_mainStage (hs : c.Routed) (hname : name ∉ otherNames) :
    (mainStage c).select name =
      (if "stage" = name then [mainStage c] else []) ++ (selectMembers name c c.diagram.nodes ++
        c.diagram.nodes.flatMap fun n =>
          if n.kind = .stage then
            (if "stage" = name then [nestedStageOf c n] else []) ++ selectMembers name c n.children
          else []) := by
  rw [mainStage, element, select_element, stageContent, select_stageContentWith hname,
    nestedStages_eq_flatMap, List.flatMap_assoc]
  refine congrArg _ (congrArg _ (List.flatMap_congr fun n hn => ?_))
  rw [nestedStage_eq_nestedStageOf hs hn]
  split
  · rw [List.flatMap_singleton, nestedStageOf, element, select_element,
      select_stageContentWith hname, List.flatMap_nil, List.append_nil]
  · rfl

/-- What is selected from the case by a name that neither it nor a stage has. -/
theorem select_caseElement (hs : c.Routed) (hname : name ∉ frameNames) :
    (caseElement c).select name =
      (mainItem c).select name ++ (selectMembers name c c.diagram.nodes ++
        c.diagram.nodes.flatMap fun n => selectMembers name c n.children) := by
  obtain ⟨hcase, hmodel, hstage, hother⟩ : "case" ≠ name ∧ "casePlanModel" ≠ name ∧
      "stage" ≠ name ∧ name ∉ otherNames := by
    simpa [frameNames, not_or, eq_comm] using hname
  rw [select_caseElement_eq, if_neg hcase, if_neg hmodel, select_mainStage hs hother,
    ← flatMap_ite_stage hs _ rfl]
  simp only [if_neg hstage, List.nil_append]

/-- Names that no sentry has are selected from the plan items, in the order of the nodes. -/
theorem select_of_items (hs : c.Routed) (hname : name ∉ frameNames)
    (hsentry : name ∉ ("sentry" :: sentryNames : List Text)) :
    (caseElement c).select name =
      (mainItem c).select name ++
        c.diagram.inOrder.flatMap fun n => (planItem c n).select name := by
  have hnil : ∀ s : Sentry α, (sentry c s).select name = [] := by
    intro s
    refine Uses.select_eq_nil (uses_element List.mem_cons_self fun k hk => ?_) hsentry
    exact (uses_sentry c s k hk).mono (List.subset_cons_self ..)
  have hmembers : ∀ ns, selectMembers name c ns =
      ns.flatMap fun n => (planItem c n).select name := by
    intro ns
    simp [selectMembers, hnil]
  simp only [select_caseElement hs hname, hmembers, flatMap_inOrder, List.flatMap_assoc]

/-- Names that no plan item has are selected from the sentries, in order. -/
theorem select_of_sentries (hs : c.Routed) (hname : name ∉ frameNames)
    (hitem : name ∉ ("planItem" :: itemNames : List Text)) :
    (caseElement c).select name = c.allSentries.flatMap fun s => (sentry c s).select name := by
  have hmain : (mainItem c).select name = [] :=
    Uses.select_eq_nil (uses_element List.mem_cons_self (List.forall_mem_nil _)) hitem
  have hnil : ∀ n : Node α, (planItem c n).select name = [] := by
    intro n
    refine Uses.select_eq_nil (uses_element List.mem_cons_self fun k hk => ?_) hitem
    exact (uses_planItem c n k hk).mono (List.subset_cons_self ..)
  have hmembers : ∀ ns, selectMembers name c ns =
      ns.flatMap fun n => (c.sentriesOf n).flatMap fun s => (sentry c s).select name := by
    intro ns
    simp [selectMembers, hnil]
  simp only [select_caseElement hs hname, hmain, hmembers, List.nil_append, Context.allSentries,
    flatMap_inOrder, List.flatMap_append, List.flatMap_assoc]

/-- Names of the diagram are not selected from the case. -/
theorem select_caseElement_eq_nil (hs : c.Routed) (hname : name ∉ frameNames)
    (hmember : name ∉ memberNames) : (caseElement c).select name = [] := by
  simp [select_caseElement hs hname, select_mainItem_eq_nil hmember, selectMembers_eq_nil hmember]

/-! ## The diagram -/

/-- The names of elements in shapes. -/
@[simp] def shapeNames : List Text := ["dc:Bounds", "cmmndi:CMMNLabel"]

/-- The names of elements in edges. -/
@[simp] def edgeNames : List Text :=
  ["di:extension", "flowable:docker", "di:waypoint", "cmmndi:CMMNLabel"]

theorem uses_shape (id : Text) (ref : Draft) (b : Box α) :
    ∀ k ∈ (shape id ref b).children, k.Uses shapeNames := by
  refine List.forall_mem_cons.2 ⟨?_, List.forall_mem_singleton.2 ?_⟩
  · exact uses_element (by simp) (List.forall_mem_nil _)
  · exact uses_element (by simp) (List.forall_mem_nil _)

theorem uses_edge (c : Context α) (s : Sentry α) (e : Edge α) :
    ∀ k ∈ (edge c s e).children, k.Uses edgeNames := by
  refine List.forall_mem_append.2 ⟨List.forall_mem_cons.2 ⟨?_, List.forall_mem_map.2 fun p _ => ?_⟩,
    List.forall_mem_singleton.2 ?_⟩
  · refine uses_element (by simp) (List.forall_mem_cons.2 ⟨?_, List.forall_mem_singleton.2 ?_⟩)
    · exact uses_element (by simp) (List.forall_mem_nil _)
    · exact uses_element (by simp) (List.forall_mem_nil _)
  · exact uses_element (by simp) (List.forall_mem_nil _)
  · exact uses_element (by simp) (List.forall_mem_nil _)

/-- What is selected from all that is drawn for the nodes. -/
theorem select_drawAll (hs : c.Routed) {draw selected : List (Node α) → List Piece}
    (hnil : selected [] = []) (h : ∀ ns, (draw ns).flatMap (select name) = selected ns) :
    (drawAll draw c.diagram.nodes).flatMap (select name) =
      selected c.diagram.nodes ++ c.diagram.nodes.flatMap fun n => selected n.children := by
  rw [drawAll_eq hs, List.flatMap_append, h, List.flatMap_assoc, ← flatMap_ite_stage hs _ hnil]
  refine congrArg _ (List.flatMap_congr fun n _ => ?_)
  split
  · exact h _
  · rfl

/-- The shape of the plan model. -/
def modelShape (c : Context α) : Piece :=
  shape (Identifier.shapeId c.case.name) (.ok c.case.planModelId)
    ⟨Coordinate.ofNat 20, Coordinate.ofNat 30, c.diagram.width + Coordinate.ofNat 50,
      c.diagram.height + Coordinate.ofNat 50⟩

/-- The shape of the main stage. -/
def mainShape (c : Context α) : Piece :=
  shape (Identifier.shapeId c.case.mainItem) (.ok (Identifier.planItemId c.case.mainItem))
    ⟨Coordinate.ofNat 40, Coordinate.ofNat 50, c.diagram.width, c.diagram.height⟩

/-- What is selected from the diagram by a name that it does not have itself, given what is selected
from the shapes and edges of nodes. -/
theorem select_diagramElement (hs : c.Routed)
    (hname : name ∉ (["cmmndi:CMMNDI", "cmmndi:CMMNDiagram"] : List Text))
    {shapes edges : List (Node α) → List Piece} (hshapes : shapes [] = []) (hedges : edges [] = [])
    (hshape : ∀ ns, (memberShapes c ns).flatMap (select name) = shapes ns)
    (hedge : ∀ ns, (memberEdges c ns).flatMap (select name) = edges ns) :
    (diagramElement c).select name =
      (modelShape c).select name ++ ((mainShape c).select name ++
        ((shapes c.diagram.nodes ++ c.diagram.nodes.flatMap fun n => shapes n.children) ++
          (edges c.diagram.nodes ++ c.diagram.nodes.flatMap fun n => edges n.children))) := by
  obtain ⟨hmodel, hdiagram⟩ : "cmmndi:CMMNDI" ≠ name ∧ "cmmndi:CMMNDiagram" ≠ name := by
    simpa [not_or, eq_comm] using hname
  rw [diagramElement, element, select_element, if_neg hmodel, List.nil_append,
    List.flatMap_singleton, element, select_element, if_neg hdiagram, List.nil_append,
    List.flatMap_append, select_drawAll hs hedges hedge, List.flatMap_cons, List.flatMap_cons,
    select_drawAll hs hshapes hshape]
  simp only [List.append_assoc]
  rfl

theorem select_shape_eq_nil (hname : name ∉ ("cmmndi:CMMNShape" :: shapeNames : List Text))
    (id : Text) (ref : Draft) (b : Box α) : (shape id ref b).select name = [] := by
  refine Uses.select_eq_nil (uses_element List.mem_cons_self fun k hk => ?_) hname
  exact (uses_shape id ref b k hk).mono (List.subset_cons_self ..)

/-- A name that no shape has is not selected from the shapes of nodes. -/
theorem select_memberShapes_eq_nil (hname : name ∉ ("cmmndi:CMMNShape" :: shapeNames : List Text))
    (c : Context α) (ns : List (Node α)) : (memberShapes c ns).flatMap (select name) = [] := by
  simp [memberShapes, List.flatMap_append, List.flatMap_map, List.flatMap_assoc,
    select_shape_eq_nil hname]

/-- A name that no edge has is not selected from the edges that lead to nodes. -/
theorem select_memberEdges_eq_nil (hname : name ∉ ("cmmndi:CMMNEdge" :: edgeNames : List Text))
    (c : Context α) (ns : List (Node α)) : (memberEdges c ns).flatMap (select name) = [] := by
  have hedge : ∀ s e, (edge c s e).select name = [] := by
    intro s e
    refine Uses.select_eq_nil (uses_element List.mem_cons_self fun k hk => ?_) hname
    exact (uses_edge c s e k hk).mono (List.subset_cons_self ..)
  simp [memberEdges, List.flatMap_map, List.flatMap_assoc, hedge]

/-- The names of the diagram and of all elements in it. -/
@[simp] def diagramNames : List Text :=
  "cmmndi:CMMNDI" :: "cmmndi:CMMNDiagram" :: "cmmndi:CMMNShape" :: "cmmndi:CMMNEdge" ::
    (shapeNames ++ edgeNames)

theorem select_diagramElement_eq_nil (hs : c.Routed) (hname : name ∉ diagramNames) :
    (diagramElement c).select name = [] := by
  have hnot : ∀ {names : List Text}, names ⊆ diagramNames → name ∉ names :=
    fun hsub hmem => hname (hsub hmem)
  have hshape : name ∉ ("cmmndi:CMMNShape" :: shapeNames : List Text) := hnot (by simp)
  have hedge : name ∉ ("cmmndi:CMMNEdge" :: edgeNames : List Text) := hnot (by simp)
  rw [select_diagramElement hs (hnot (by simp)) rfl rfl (select_memberShapes_eq_nil hshape c)
    (select_memberEdges_eq_nil hedge c), modelShape, mainShape, select_shape_eq_nil hshape,
    select_shape_eq_nil hshape]
  simp

/-! ## The document -/

theorem select_root (c : Context α) (hname : name ≠ "definitions") :
    (root c).select name = (caseElement c).select name ++ (diagramElement c).select name := by
  rw [root, element, select_element, if_neg hname.symm, List.nil_append, List.flatMap_cons,
    List.flatMap_singleton]

/-- Names of the case are selected from it alone. -/
theorem select_root_eq_caseElement (hs : c.Routed)
    (hname : name ∉ ("definitions" :: diagramNames : List Text)) :
    (root c).select name = (caseElement c).select name := by
  obtain ⟨hroot, hdiagram⟩ := not_or.1 (mt List.mem_cons.2 hname)
  rw [select_root c hroot, select_diagramElement_eq_nil hs hdiagram, List.append_nil]

/-- Names of the diagram are selected from it alone. -/
theorem select_root_eq_diagramElement (hs : c.Routed)
    (hname : name ∉ ("definitions" :: (frameNames ++ memberNames) : List Text)) :
    (root c).select name = (diagramElement c).select name := by
  obtain ⟨hroot, hcase⟩ := not_or.1 (mt List.mem_cons.2 hname)
  obtain ⟨hframe, hmember⟩ := not_or.1 (mt List.mem_append.2 hcase)
  rw [select_root c hroot, select_caseElement_eq_nil hs hframe hmember, List.nil_append]

/-- The plan items of a document. -/
theorem select_planItem_root (hs : c.Routed) :
    (root c).select "planItem" = mainItem c :: c.diagram.inOrder.map (planItem c) := by
  have hitem : ∀ n : Node α, (planItem c n).select "planItem" = [planItem c n] :=
    fun n => select_eq_singleton (by simp) (uses_planItem c n)
  rw [select_root_eq_caseElement hs (by simp), select_of_items hs (by simp) (by simp)]
  simp only [hitem, ← List.map_eq_flatMap]
  rfl

/-- The criteria of a document. -/
theorem select_entryCriterion_root (hs : c.Routed) :
    (root c).select "entryCriterion" = c.allSentries.map criterion := by
  have hitem : ∀ n : Node α,
      (planItem c n).select "entryCriterion" = (c.sentriesOf n).map criterion := by
    intro n
    have hrule : (if repeats c n then [repetitionRule c n.slug] else []).flatMap
        (select "entryCriterion") = [] := by
      refine List.flatMap_eq_nil_iff.2 fun k hk => ?_
      split at hk
      · rw [List.mem_singleton.1 hk]
        exact (uses_repetitionRule c n.slug).select_eq_nil (by simp)
      · exact absurd hk List.not_mem_nil
    have hcriterion : ∀ s : Sentry α, (criterion s).select "entryCriterion" = [criterion s] :=
      fun s => select_eq_singleton List.not_mem_nil (List.forall_mem_nil _)
    rw [planItem, select_element, if_neg (by simp), List.nil_append, List.flatMap_append, hrule,
      List.nil_append, List.flatMap_map, List.map_eq_flatMap]
    exact List.flatMap_congr fun s _ => hcriterion s
  rw [select_root_eq_caseElement hs (by simp), select_of_items hs (by simp) (by simp),
    Context.allSentries, List.map_flatMap]
  simp only [hitem]
  rfl

/-- The sentries of a document. -/
theorem select_sentry_root (hs : c.Routed) :
    (root c).select "sentry" = c.allSentries.map (sentry c) := by
  have hsentry : ∀ s : Sentry α, (sentry c s).select "sentry" = [sentry c s] :=
    fun s => select_eq_singleton (by simp) (uses_sentry c s)
  rw [select_root_eq_caseElement hs (by simp), select_of_sentries hs (by simp) (by simp)]
  simp only [hsentry, ← List.map_eq_flatMap]

/-- What sentries wait for in a document. -/
theorem select_onPart_root (hs : c.Routed) :
    (root c).select "planItemOnPart" = c.allSentries.flatMap (onParts c) := by
  have honPart : ∀ s x, (onPart c s x).select "planItemOnPart" = [onPart c s x] :=
    fun s x => select_eq_singleton (by simp) (uses_onPart c s x)
  have hsentry : ∀ s : Sentry α, (sentry c s).select "planItemOnPart" = onParts c s := by
    intro s
    rw [sentry_eq, element, select_element, if_neg (by simp), List.nil_append,
      List.flatMap_append, List.flatMap_singleton, (uses_ifPart s).select_eq_nil (by simp),
      List.append_nil, onParts, List.flatMap_map, List.map_eq_flatMap]
    exact List.flatMap_congr fun x _ => honPart s x
  rw [select_root_eq_caseElement hs (by simp), select_of_sentries hs (by simp) (by simp)]
  simp only [hsentry]

/-- The shapes of a document. -/
theorem select_shape_root (hs : c.Routed) :
    (root c).select "cmmndi:CMMNShape" =
      modelShape c :: mainShape c :: (memberShapes c c.diagram.nodes ++
        c.diagram.nodes.flatMap fun n => memberShapes c n.children) := by
  have hshape : ∀ (id : Text) (ref : Draft) (b : Box α),
      (shape id ref b).select "cmmndi:CMMNShape" = [shape id ref b] :=
    fun id ref b => select_eq_singleton (by simp) (uses_shape id ref b)
  have hshapes : ∀ ns,
      (memberShapes c ns).flatMap (select "cmmndi:CMMNShape") = memberShapes c ns := by
    intro ns
    simp only [memberShapes, List.flatMap_append, List.flatMap_map, List.flatMap_assoc, hshape,
      ← List.map_eq_flatMap]
  rw [select_root_eq_diagramElement hs (by simp),
    select_diagramElement hs (by simp) rfl rfl hshapes (select_memberEdges_eq_nil (by simp) c),
    modelShape, mainShape, hshape, hshape]
  simp

/-- The edges of a document. -/
theorem select_edge_root (hs : c.Routed) :
    (root c).select "cmmndi:CMMNEdge" = c.allSentries.flatMap fun s => s.edges.map (edge c s) := by
  have hedge : ∀ s e, (edge c s e).select "cmmndi:CMMNEdge" = [edge c s e] :=
    fun s e => select_eq_singleton (by simp) (uses_edge c s e)
  have hedges : ∀ ns, (memberEdges c ns).flatMap (select "cmmndi:CMMNEdge") = memberEdges c ns := by
    intro ns
    simp only [memberEdges, List.flatMap_map, List.flatMap_assoc, hedge, ← List.map_eq_flatMap]
  rw [select_root_eq_diagramElement hs (by simp),
    select_diagramElement hs (by simp) rfl rfl (select_memberShapes_eq_nil (by simp) c) hedges,
    modelShape, mainShape, select_shape_eq_nil (by simp), select_shape_eq_nil (by simp)]
  simp [memberEdges, Context.allSentries, flatMap_inOrder, List.flatMap_assoc]

/-- The plan model of a document. -/
theorem select_casePlanModel_root (hs : c.Routed) :
    (root c).select "casePlanModel" = [planModel c] := by
  have hmembers : ∀ ns, selectMembers "casePlanModel" c ns = [] :=
    selectMembers_eq_nil (by simp) c
  have hstage : ("stage" : Text) ≠ "casePlanModel" := by simp
  rw [select_root_eq_caseElement hs (by simp), select_caseElement_eq,
    if_neg (by simp), if_pos rfl, select_mainItem_eq_nil (by simp),
    select_mainStage hs (by simp)]
  simp [hmembers, hstage]

/-- The stages of a document. -/
theorem select_stage_root (hs : c.Routed) :
    (root c).select "stage" =
      mainStage c :: c.diagram.nodes.flatMap fun n =>
        if n.kind = .stage then [nestedStageOf c n] else [] := by
  have hmembers : ∀ ns, selectMembers "stage" c ns = [] := selectMembers_eq_nil (by simp) c
  rw [select_root_eq_caseElement hs (by simp), select_caseElement_eq,
    if_neg (by simp), if_neg (by simp), select_mainItem_eq_nil (by simp),
    select_mainStage hs (by simp)]
  simp only [hmembers, if_true, List.append_nil, List.nil_append, List.singleton_append]

/-- The human tasks of a document, those of nested stages first. -/
theorem select_humanTask_root (hs : c.Routed) :
    (root c).select "humanTask" =
      (c.diagram.nodes.flatMap fun n => (n.children.filter (·.kind = .task)).map (humanTask c)) ++
        (c.diagram.nodes.filter (·.kind = .task)).map (humanTask c) := by
  have hnested : ∀ n ∈ c.diagram.nodes, (nestedStage c n).flatMap (select "humanTask") =
      (n.children.filter (·.kind = .task)).map (humanTask c) := by
    intro n hn
    rw [nestedStage_eq_nestedStageOf hs hn]
    split
    · rw [List.flatMap_singleton, nestedStageOf, element, select_element, if_neg (by simp),
        List.nil_append, select_humanTask_stageContentWith]
      rfl
    · next hk =>
      have hkind : n.kind = .task := by
        cases h : n.kind with
        | task => rfl
        | stage => exact absurd h hk
      rw [children_eq_nil hs hn hkind]
      rfl
  rw [select_root_eq_caseElement hs (by simp), select_caseElement_eq,
    if_neg (by simp), if_neg (by simp), select_mainItem_eq_nil (by simp), mainStage, element,
    select_element, if_neg (by simp), stageContent, select_humanTask_stageContentWith,
    nestedStages_eq_flatMap, List.flatMap_assoc, List.flatMap_congr hnested]
  simp only [List.nil_append]

/-- The human tasks of a document are those of the nodes of tasks. -/
theorem perm_select_humanTask_root (hs : c.Routed) :
    ((root c).select "humanTask").Perm
      ((c.diagram.inOrder.filter (·.kind = .task)).map (humanTask c)) := by
  rw [select_humanTask_root hs, Diagram.inOrder, List.filter_append, List.map_append,
    List.filter_flatMap, List.map_flatMap]
  exact List.perm_append_comm

end CasePlan.Document
