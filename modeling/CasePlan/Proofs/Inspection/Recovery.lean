import CasePlan.Proofs.Diagram.Order
import CasePlan.Proofs.Document.Reference
import CasePlan.Proofs.Inspection.View

/-!
# What an inspection finds

An inspection of a compiled document finds nothing wrong, the names of the case, and the tasks of
its description.

* `FoundTask.ofTask`: what is found for a task.
* `foundTask_humanTask`: the human task of a node is found as the node's task.
* `referredTasks_stageContent`: the plan items of a stage lead to what stands in it.
* `structureErrors_seenRoot`, `warnings_seenRoot`: nothing is missing, and nothing is amiss.
* `inspectRoot_seenRoot`: the whole inspection.
-/

namespace CasePlan

open Document Xml

/-- What is found for a task of a stage, or of none. -/
def FoundTask.ofTask (case : Case) (config : Config) (stage : Option Stage) (t : Task) :
    FoundTask where
  id := Identifier.scope (stage.map (·.slug)) case.name ++ t.slug
  slug := t.slug
  name := t.displayName
  assignee := some (textOr t.assignee config.assignee)
  candidateGroups := Inspection.filled t.candidateGroups
  dueDate := Inspection.filled t.dueDate
  formKey := some (textOr t.formKey (t.slug ++ "Form"))
  outcomes := t.outcomes.eraseDups.map .str
  stage := stage.map (·.slug)
  stageName := stage.map (·.displayName)

namespace Inspection

/-- Where the tasks of a stage are found, or those of no stage. -/
def Place.ofStage (case : Case) (stage : Option Stage) : Place where
  scope := Identifier.scope (stage.map (·.slug)) case.name
  stage := stage.map (·.slug)
  stageName := stage.map (·.displayName)

/-! ## Outcomes -/

theorem addOutcome_str {o : Text} (ho : o ≠ []) (before : List Text) :
    addOutcome (before.eraseDups.map .str) (.str o) = (before ++ [o]).eraseDups.map .str := by
  have htruthy : (Json.str o).isTruthy = true := by
    cases o with
    | nil => exact absurd rfl ho
    | cons c o => rfl
  have hany : (before.eraseDups.map Json.str).any (Json.same (.str o)) = decide (o ∈ before) := by
    rw [Bool.eq_iff_iff, List.any_map, List.any_eq_true, decide_eq_true_eq]
    constructor
    · rintro ⟨p, hp, hsame⟩
      rw [Function.comp_apply, Json.same, beq_iff_eq] at hsame
      rw [hsame]
      exact List.mem_eraseDups.1 hp
    · intro hmem
      refine ⟨o, List.mem_eraseDups.2 hmem, ?_⟩
      rw [Function.comp_apply, Json.same, beq_iff_eq]
  rw [addOutcome, htruthy, hany, List.eraseDups_append, Bool.true_and]
  by_cases hmem : o ∈ before
  · simp [hmem, List.removeAll]
  · simp [hmem, List.removeAll]
    rfl

/-- The outcomes that rules ask for are added one after another. -/
theorem ruleOutcomes_map_rule {os : List Text} (hos : ∀ o ∈ os, o ≠ []) (before : List Text) :
    ruleOutcomes (before.eraseDups.map .str) (os.map Outcome.rule) =
      .ok ((before ++ os).eraseDups.map .str) := by
  induction os generalizing before with
  | nil => rw [List.append_nil]; rfl
  | cons o os ih =>
    have hone : ∀ outcomes : List Json, ruleOutcomes outcomes ((o :: os).map Outcome.rule) =
        ruleOutcomes (addOutcome outcomes (.str o)) (os.map Outcome.rule) := fun _ => rfl
    rw [hone, addOutcome_str (hos o (by simp)), ih (fun p hp => hos p (by simp [hp])),
      List.append_assoc]
    rfl

/-! ## Tasks -/

section

variable {α : Type} {c : Context α} {n : Node α} {t : Task}

/-- The human task of a node that has a task. -/
def taskPiece (c : Context α) (n : Node α) (t : Task) : Piece :=
  element "humanTask" (humanTaskAttributes c n t)
    [element "extensionElements" []
      [element "modeler:flowable-idm-initiator" [] [.cdata (.ok "true")],
        taskListener "create" flowListener [],
        taskListener "complete" statusListener [statusRules t.outcomes],
        taskListener "complete" flowListener []]]

theorem humanTask_eq (h : c.logic.task? n.slug = some t) : humanTask c n = taskPiece c n t := by
  rw [humanTask, h]
  rfl

/-- There are no line ends in rules. -/
theorem normalizeLines_write {outcomes : List Text} (h : Outcome.AreScalar outcomes) :
    normalizeLines (Outcome.write outcomes) = Outcome.write outcomes := by
  refine normalizeLines_eq_self fun hmem => ?_
  exact absurd (List.all_eq_true.1 (Outcome.all_write h) _ hmem) (by decide)

/-- The rules of a listener are read back. -/
theorem readRules?_statusListener {outcomes : List Text} (h : Outcome.AreScalar outcomes)
    (event : Text) :
    Outcome.readRules?
        (listenerPayload (seen (taskListener event statusListener [statusRules outcomes]))) =
      some (outcomes.map Outcome.rule) := by
  have hpayload : listenerPayload (seen (taskListener event statusListener [statusRules outcomes])) =
      (normalizeLines (Outcome.write outcomes) ++ []).strip := rfl
  rw [hpayload, normalizeLines_write h, List.append_nil, Outcome.readRules?_write h]

theorem taskOutcomes_taskPiece (ht : t.Sound) :
    taskOutcomes (seen (taskPiece c n t)) = .ok (t.outcomes.eraseDups.map .str) := by
  have hlisteners : (listeners (seen (taskPiece c n t)) statusListener).map (·.1) =
      [seen (taskListener "complete" statusListener [statusRules t.outcomes])] := rfl
  have hrules := readRules?_statusListener (areScalar_of_isOutcome ht.outcomes) "complete"
  have hne : ∀ o ∈ t.outcomes, o ≠ [] := fun o ho => (ht.outcomes o ho).ne_nil
  rw [taskOutcomes, hlisteners, List.foldlM_cons, hrules, Option.getD_some,
    ← List.map_nil (f := Json.str), ← List.eraseDups_nil, ruleOutcomes_map_rule hne]
  rfl

theorem textOr_ne_nil {declared : Option Text} {otherwise : Text} (h : otherwise ≠ []) :
    textOr declared otherwise ≠ [] := by
  unfold textOr
  split
  · exact List.cons_ne_nil _ _
  · exact h

theorem filled_some {s : Text} (h : s ≠ []) : filled (some s) = some s := by
  cases s with
  | nil => exact absurd rfl h
  | cons c s => rfl

/-- The attributes of a human task are found again. -/
theorem attributes_taskPiece :
    plainAttribute? "id" (seen (taskPiece c n t)) = some (c.definitionId n) ∧
      plainAttribute? "name" (seen (taskPiece c n t)) = some n.name ∧
      engineAttribute? "assignee" (seen (taskPiece c n t)) =
        some (textOr t.assignee c.config.assignee) ∧
      engineAttribute? "candidateGroups" (seen (taskPiece c n t)) = filled t.candidateGroups ∧
      engineAttribute? "dueDate" (seen (taskPiece c n t)) = filled t.dueDate ∧
      engineAttribute? "formKey" (seen (taskPiece c n t)) =
        some (textOr t.formKey (t.slug ++ "Form")) := by
  have hoptional : ∀ (name : Text) (value : Option Text),
      optionalAttribute name value = ((filled value).map fun v => (name, v)).toList := by
    intro name value
    rcases value with _ | _ | ⟨c, rest⟩ <;> rfl
  rw [taskPiece, humanTaskAttributes, hoptional, hoptional]
  cases filled t.candidateGroups <;> cases filled t.dueDate
  all_goals exact ⟨rfl, rfl, rfl, rfl, rfl, rfl⟩

theorem scope_ne_nil {name : Text} (h : name ≠ []) (parent : Option Text) :
    Identifier.scope parent name ≠ [] := by
  unfold Identifier.scope
  split
  · exact List.cons_ne_nil _ _
  · exact h

/-- The human task of a node is found as the task that the node stands for. -/
theorem foundTask_taskPiece (ht : t.Sound) (hn : n.ShowsTask c.logic t) (hname : c.case.name ≠ []) :
    foundTask (Place.ofStage c.case (c.logic.stageOf? t.slug)) (seen (taskPiece c n t)) =
      .ok (FoundTask.ofTask c.case c.config (c.logic.stageOf? t.slug) t) := by
  obtain ⟨hid, hlabel, hassignee, hgroups, hdue, hform⟩ := @attributes_taskPiece α c n t
  have hdefinition : c.definitionId n =
      (Place.ofStage c.case (c.logic.stageOf? t.slug)).scope ++ t.slug := by
    rw [Context.definitionId, hn.kind, Context.scope, hn.parent, hn.slug]
    rfl
  have hscope : (Place.ofStage c.case (c.logic.stageOf? t.slug)).scope.isEmpty = false := by
    rw [List.isEmpty_eq_false_iff]
    exact scope_ne_nil hname _
  have hslug : t.slug.isEmpty = false := by
    rw [List.isEmpty_eq_false_iff]
    exact ht.slug.ne_nil
  have hformKey : textOr t.formKey (t.slug ++ "Form") ≠ [] := by
    refine textOr_ne_nil ?_
    rw [Ne, List.append_eq_nil_iff]
    exact fun h => ht.slug.ne_nil h.1
  have houtcomes : (t.outcomes.eraseDups.map Json.str).isEmpty = false := by
    rw [List.isEmpty_eq_false_iff, Ne, List.map_eq_nil_iff]
    intro hnil
    obtain ⟨o, ho⟩ := List.exists_mem_of_ne_nil _ ht.outcomes_ne_nil
    exact absurd (List.mem_eraseDups.2 ho) (by rw [hnil]; exact List.not_mem_nil)
  rw [foundTask, taskOutcomes_taskPiece ht, hid, hlabel, hassignee, hgroups, hdue, hform,
    Option.getD_some, hdefinition, Text.after?_append, hn.name, filled_some ht.displayName.ne_nil,
    filled_some hformKey]
  simp only [ok_bind, hscope, hslug, houtcomes, Bool.false_eq_true, if_false, Option.getD_some]
  rfl

/-! ## Stages -/

/-- What the tasks of a stage's element are found under. -/
theorem insideStage_stage {s : Stage} (hslug : s.slug ≠ []) (hname : s.displayName ≠ [])
    (case : Case) (children : List Piece) :
    insideStage (seen (element "stage" [("id", Identifier.stageId s.slug), ("name", s.displayName)]
      children)) = Place.ofStage case (some s) := by
  have hid : plainAttribute? "id" (seen (element "stage"
      [("id", Identifier.stageId s.slug), ("name", s.displayName)] children)) =
        some (s.slug ++ "stage") := rfl
  have hlabel : plainAttribute? "name" (seen (element "stage"
      [("id", Identifier.stageId s.slug), ("name", s.displayName)] children)) =
        some s.displayName := rfl
  have hscope : Identifier.scope (some s.slug) case.name = s.slug := by
    unfold Identifier.scope
    split
    · next h => exact (Option.some.inj h).symm
    · next h =>
      obtain ⟨d, rest, hd⟩ := List.exists_cons_of_ne_nil hslug
      exact absurd (by rw [hd]) (h d rest)
  rw [insideStage, hid, hlabel, Option.getD_some, Text.before?_append, Option.getD_some,
    filled_some hname, Place.ofStage, Option.map_some, Option.map_some, hscope]
  rfl

/-- The element of a stage defines what its plan items lead to. -/
theorem definition?_stageElement (place : Place) (attributes : List (Text × Text))
    (children : List Piece) :
    definition? place (seen (element "stage" attributes children)) =
      some (plainAttribute? "id" (seen (element "stage" attributes children)),
        referredTasks (definitions (insideStage (seen (element "stage" attributes children)))
          (children.map seen)) (children.map seen)) := by
  rw [element, seen_element, definition?]
  exact if_pos rfl

theorem definitions_eq_filterMap (place : Place) (cs : List Content) :
    definitions place cs = cs.filterMap (definition? place) := by
  induction cs with
  | nil => rfl
  | cons c cs ih =>
    rw [definitions, ih, List.filterMap_cons]
    cases definition? place c <;> rfl

/-- Only plan items lead to tasks. -/
theorem referredTasks_filter
    (definitions : List (Option Text × Except InspectionError (List FoundTask)))
    (cs : List Content) :
    referredTasks definitions (cs.filter (Content.isElement modelNamespace "planItem")) =
      referredTasks definitions cs := by
  induction cs with
  | nil => rfl
  | cons c cs ih =>
    rw [List.filter_cons, referredTasks]
    split
    · next h => rw [referredTasks, if_pos h, ih]
    · exact ih

/-- Plan items lead to what their nodes are defined as. -/
theorem referredTasks_planItems
    {definitions : List (Option Text × Except InspectionError (List FoundTask))}
    {members : List (Node α)} {result : Node α → List FoundTask}
    (h : ∀ n ∈ members,
      Table.last? (some (c.definitionId n)) definitions = some (.ok (result n))) :
    referredTasks definitions ((members.map (planItem c)).map seen) = .ok (members.flatMap result) := by
  induction members with
  | nil => rfl
  | cons n ms ih =>
    have hitem : (seen (planItem c n)).isElement modelNamespace "planItem" = true := rfl
    have href : plainAttribute? "definitionRef" (seen (planItem c n)) = some (c.definitionId n) := rfl
    rw [List.map_cons, List.map_cons, referredTasks, if_pos hitem, href, h n (by simp),
      ih fun m hm => h m (by simp [hm]), List.flatMap_cons]
    rfl

/-- The tasks and the nested stages define what the nodes in a stage stand for. -/
theorem definitions_stageContentWith {members : List (Node α)} {nested : List Piece} {place : Place}
    {result : Node α → List FoundTask}
    (htasks : ∀ n ∈ members, n.kind = .task →
      definition? place (seen (humanTask c n)) = some (some (c.definitionId n), .ok (result n)))
    (hnested : (nested.map seen).filterMap (definition? place) =
      (members.filter (·.kind = .stage)).map fun n => (some (c.definitionId n), .ok (result n))) :
    definitions place ((stageContentWith c members nested).map seen) =
      (members.filter (·.kind = .stage) ++ members.filter (·.kind = .task)).map fun n =>
        (some (c.definitionId n), .ok (result n)) := by
  have hitems : ((members.map (planItem c)).map seen).filterMap (definition? place) = [] := by
    rw [List.filterMap_eq_nil_iff, List.forall_mem_map, List.forall_mem_map]
    exact fun _ _ => rfl
  have hsentries : ((members.flatMap fun n => (c.sentriesOf n).map (sentry c)).map seen).filterMap
      (definition? place) = [] := by
    rw [List.filterMap_eq_nil_iff, List.forall_mem_map, List.forall_mem_flatMap]
    intro n _
    rw [List.forall_mem_map]
    exact fun _ _ => rfl
  have hhuman : (((members.filter (·.kind = .task)).map (humanTask c)).map seen).filterMap
      (definition? place) =
        (members.filter (·.kind = .task)).map fun n => (some (c.definitionId n), .ok (result n)) := by
    rw [List.map_map, List.filterMap_map, ← List.filterMap_eq_map]
    refine List.filterMap_congr fun n hn => ?_
    obtain ⟨hn, hk⟩ := List.mem_filter.1 hn
    exact htasks n hn (of_decide_eq_true hk)
  rw [definitions_eq_filterMap]
  unfold stageContentWith
  rw [List.cons_append, List.cons_append, List.cons_append, List.map_cons, List.filterMap_cons_none rfl]
  simp only [List.map_append, List.filterMap_append, hitems, hsentries, hnested, hhuman,
    List.nil_append]

/-- The plan items of a stage lead to what stands in it. -/
theorem referredTasks_stageContent {members : List (Node α)} {nested : List Piece} {place : Place}
    {result : Node α → List FoundTask} (hnodup : (members.map c.definitionId).Nodup)
    (hstages : ∀ d ∈ nested, d.hasName "stage" = true)
    (htasks : ∀ n ∈ members, n.kind = .task →
      definition? place (seen (humanTask c n)) = some (some (c.definitionId n), .ok (result n)))
    (hnested : (nested.map seen).filterMap (definition? place) =
      (members.filter (·.kind = .stage)).map fun n => (some (c.definitionId n), .ok (result n))) :
    referredTasks (definitions place ((stageContentWith c members nested).map seen))
        ((stageContentWith c members nested).map seen) = .ok (members.flatMap result) := by
  have hperm : (members.filter (·.kind = .stage) ++ members.filter (·.kind = .task)).Perm members := by
    have hsplit := List.filter_append_perm (fun n : Node α => n.kind = .stage) members
    have hkind : ∀ n : Node α, (!decide (n.kind = .stage)) = decide (n.kind = .task) := by
      intro n
      cases n.kind <;> rfl
    simpa only [hkind] using hsplit
  have hkeys : (((members.filter (·.kind = .stage) ++ members.filter (·.kind = .task)).map fun n =>
      (some (c.definitionId n), (Except.ok (result n) : Except InspectionError (List FoundTask)))).map
        Prod.fst).Nodup := by
    rw [List.map_map, ((hperm.map _).nodup_iff)]
    have hsome := hnodup.map (Option.some_injective Text)
    rwa [List.map_map] at hsome
  rw [← referredTasks_filter, filter_map_seen rfl, filter_planItem_stageContentWith hstages,
    definitions_stageContentWith htasks hnested]
  refine referredTasks_planItems fun n hn => ?_
  have hmem := List.mem_map_of_mem (f := fun n =>
    (some (c.definitionId n), (Except.ok (result n) : Except InspectionError (List FoundTask))))
    (hperm.mem_iff.2 hn)
  exact Table.last?_eq_some_of_mem hkeys hmem

end

/-! ## The whole plan model -/

section

variable {α : Type} [Coordinate α] {c : Context α} {n : Node α}

/-- What is found for the task with a slug. -/
def foundAt (c : Context α) (slug : Text) : List FoundTask :=
  (c.logic.task? slug).toList.map fun t =>
    FoundTask.ofTask c.case c.config (c.logic.stageOf? t.slug) t

/-- What is found for a node at the top. -/
def foundIn (c : Context α) (n : Node α) : List FoundTask :=
  match n.kind with
  | .task => foundAt c n.slug
  | .stage => n.children.flatMap fun m => foundAt c m.slug

theorem definition?_humanTask (hs : c.Sound) (hname : c.case.name ≠ []) (hn : n ∈ c.diagram.inOrder)
    (hk : n.kind = .task) :
    definition? (Place.ofStage c.case (c.logic.stageOf? n.slug)) (seen (humanTask c n)) =
      some (some (c.definitionId n), .ok (foundAt c n.slug)) := by
  rcases hs.diagram.shows_of_mem hs.logic hn with ⟨s, -, h⟩ | ⟨t, ht, h⟩
  · rw [h.kind] at hk
    exact absurd hk (by simp)
  · have htask : c.logic.task? n.slug = some t := by rw [h.slug, hs.logic.task?_eq_some ht]
    have hfound := foundTask_taskPiece (c := c) (hs.logic.task t ht) h hname
    have hdefinition : ∀ place, definition? place (seen (taskPiece c n t)) =
        some (some (c.definitionId n), (foundTask place (seen (taskPiece c n t))).map ([·])) :=
      fun _ => rfl
    rw [humanTask_eq htask, hdefinition, foundAt, htask, h.slug, hfound]
    rfl

/-- The stage of a node leads to the tasks in it. -/
theorem definition?_stage (hs : c.Sound) (hname : c.case.name ≠ []) (hn : n ∈ c.diagram.nodes)
    (hk : n.kind = .stage) (place : Place) :
    definition? place (seen (element "stage" [("id", Identifier.stageId n.slug), ("name", n.name)]
        (stageContentWith c n.children []))) =
      some (some (c.definitionId n), .ok (foundIn c n)) := by
  obtain ⟨item, hitem, h⟩ := exists_mem_left_of_forall₂ hs.diagram hn
  cases item with
  | task t => exact absurd (h.kind.symm.trans hk) (by simp [Layout.Item.kind])
  | stage s =>
    have hmem := (Layout.mem_items_stage hs.logic).1 hitem
    have hsound := hs.logic.stage s hmem
    have hchildren : ∀ m ∈ n.children, m ∈ c.diagram.inOrder :=
      fun m hm => Diagram.mem_inOrder.2 (.inr ⟨n, hn, hm⟩)
    have hnodup : (n.children.map c.definitionId).Nodup := by
      have hall := nodup_definitionIds hs
      rw [Diagram.inOrder, List.map_append, List.map_flatMap] at hall
      exact (List.nodup_flatMap.1 (List.nodup_append.1 hall).2.1).1 n hn
    have htasks : ∀ m ∈ n.children, m.kind = .task →
        definition? (Place.ofStage c.case (some s)) (seen (humanTask c m)) =
          some (some (c.definitionId m), .ok (foundAt c m.slug)) := by
      intro m hm hkind
      obtain ⟨member, hmember, hshows⟩ := exists_mem_left_of_forall₂ h.children hm
      have hstage : c.logic.stageOf? m.slug = some s := by
        rw [hshows.slug]
        exact hs.logic.stageOf?_eq_some hmem hmember
      rw [← hstage]
      exact definition?_humanTask hs hname (hchildren m hm) hkind
    have hnone : n.children.filter (·.kind = .stage) = [] := by
      rw [List.filter_eq_nil_iff]
      intro m hm
      rw [kind_of_mem_children hs.toRouted hn hm]
      decide
    have hreferred : referredTasks (definitions (Place.ofStage c.case (some s))
        ((stageContentWith c n.children []).map seen)) ((stageContentWith c n.children []).map seen) =
          .ok (n.children.flatMap fun m => foundAt c m.slug) :=
      referredTasks_stageContent hnodup (List.forall_mem_nil _) htasks (by rw [hnone]; rfl)
    have hinside := insideStage_stage hsound.slug.ne_nil hsound.displayName_ne_nil c.case
      (stageContentWith c n.children [])
    have hid : c.definitionId n = Identifier.stageId n.slug := by rw [Context.definitionId, hk]
    have hslug : n.slug = s.slug := h.slug
    have hlabel : n.name = s.displayName := h.name
    rw [foundIn, hk, hid, hslug, hlabel, definition?_stageElement, hinside, hreferred]
    rfl

/-- The nested stages lead to the tasks in them. -/
theorem filterMap_definition?_nestedStages (hs : c.Sound) (hname : c.case.name ≠ []) (place : Place) :
    ((nestedStages c c.diagram.nodes).map seen).filterMap (definition? place) =
      (c.diagram.nodes.filter (·.kind = .stage)).map fun n =>
        (some (c.definitionId n), .ok (foundIn c n)) := by
  have hall : ∀ ns : List (Node α), (∀ n ∈ ns, n ∈ c.diagram.nodes) →
      ((ns.flatMap (nestedStage c)).map seen).filterMap (definition? place) =
        (ns.filter (·.kind = .stage)).map fun n => (some (c.definitionId n), .ok (foundIn c n)) := by
    intro ns hns
    induction ns with
    | nil => rfl
    | cons n ns ih =>
      have hn := hns n (by simp)
      rw [List.flatMap_cons, List.map_append, List.filterMap_append, ih fun m hm => hns m (by simp [hm]),
        nestedStage_eq]
      cases hk : n.kind with
      | task => simp [hk]
      | stage =>
        rw [nestedStages_eq_nil c fun m hm => kind_of_mem_children hs.toRouted hn hm, if_pos rfl,
          List.map_singleton, List.filterMap_cons_some (definition?_stage hs hname hn hk place),
          List.filter_cons_of_pos (by simp [hk])]
        rfl
  rw [nestedStages_eq_flatMap]
  exact hall _ fun n hn => hn

/-- The tasks of the main stage. -/
theorem stageTasks_mainStage (hs : c.Sound) (hname : c.case.name ≠ []) (attributes : List (Text × Text)) :
    stageTasks { scope := c.case.name }
        (seen (element "stage" attributes (stageContent c c.diagram.nodes))) =
      .ok (c.diagram.nodes.flatMap (foundIn c)) := by
  have hnodup : (c.diagram.nodes.map c.definitionId).Nodup := by
    have hall := nodup_definitionIds hs
    rw [Diagram.inOrder, List.map_append] at hall
    exact (List.nodup_append.1 hall).1
  have htasks : ∀ n ∈ c.diagram.nodes, n.kind = .task →
      definition? (Place.ofStage c.case none) (seen (humanTask c n)) =
        some (some (c.definitionId n), .ok (foundIn c n)) := by
    intro n hn hk
    obtain ⟨item, hitem, h⟩ := exists_mem_left_of_forall₂ hs.diagram hn
    cases item with
    | stage s => exact absurd (h.kind.symm.trans hk) (by simp [Layout.Item.kind])
    | task t =>
      have hslug : n.slug = t.slug := h.slug
      have hstage : c.logic.stageOf? n.slug = none := by
        rw [hslug]
        exact (Layout.mem_items_task.1 hitem).2
      have hfound := definition?_humanTask hs hname (Diagram.mem_inOrder.2 (.inl hn)) hk
      rw [hstage] at hfound
      rw [hfound, foundIn, hk]
  have hplace : ({ scope := c.case.name } : Place) = Place.ofStage c.case none := rfl
  have hreferred := referredTasks_stageContent hnodup (nests_main hs).hasName htasks
    (filterMap_definition?_nestedStages hs hname _)
  rw [hplace, stageTasks, element, seen_element]
  exact hreferred

/-- The nodes of a diagram lead to the tasks in its order. -/
theorem flatMap_foundIn (hs : c.Sound) :
    c.diagram.nodes.flatMap (foundIn c) = c.logic.inDiagramOrder.map fun t =>
      FoundTask.ofTask c.case c.config (c.logic.stageOf? t.slug) t := by
  have hitems : ∀ item ∈ Layout.items c.logic, ∀ n : Node α, n.Shows c.logic item →
      foundIn c n = (item.tasks c.logic).map fun t =>
        FoundTask.ofTask c.case c.config (c.logic.stageOf? t.slug) t := by
    intro item hitem n h
    cases item with
    | task t =>
      have hkind : n.kind = .task := h.kind
      have hslug : n.slug = t.slug := h.slug
      rw [foundIn, hkind, hslug, Layout.Item.tasks]
      show foundAt c t.slug = _
      rw [foundAt, hs.logic.task?_eq_some (Layout.mem_items_task.1 hitem).1]
      rfl
    | stage s =>
      have hkind : n.kind = .stage := h.kind
      have hmembers : n.children.map (·.slug) = s.members := map_slug_of_showsMember h.children
      rw [foundIn, hkind, Layout.Item.tasks, ← hmembers, List.filterMap_map, List.map_filterMap]
      show n.children.flatMap (fun m => foundAt c m.slug) = _
      generalize n.children = ms
      induction ms with
      | nil => rfl
      | cons m ms ih =>
        rw [List.flatMap_cons, ih, List.filterMap_cons, Function.comp_apply, foundAt]
        cases c.logic.task? m.slug <;> rfl
  have hdepicts := hs.diagram
  unfold Diagram.Depicts at hdepicts
  rw [Logic.inDiagramOrder]
  generalize Layout.items c.logic = items, c.diagram.nodes = nodes at hdepicts hitems
  induction hdepicts with
  | nil => rfl
  | cons h _ ih =>
    rw [List.flatMap_cons, List.flatMap_cons, List.map_append, hitems _ (by simp) _ h,
      ih fun item hitem => hitems item (by simp [hitem])]

/-! ## Structure and quality -/

theorem modelChild?_case (c : Context α) :
    modelChild? "case" (seenRoot c) = some (seen (caseElement c)) := by rfl

omit [Coordinate α] in
theorem modelChild?_planModel (c : Context α) :
    modelChild? "casePlanModel" (seen (caseElement c)) = some (seen (planModel c)) := by rfl

omit [Coordinate α] in
theorem modelChild?_mainStage (c : Context α) :
    modelChild? "stage" (seen (planModel c)) = some (seen (mainStage c)) := by rfl

omit [Coordinate α] in
/-- What is read from the main stage is read from the case. -/
theorem mem_descendants_of_mainStage {n : Piece} (hn : n ∈ stageContent c c.diagram.nodes)
    {x : Content} (hx : x ∈ (seen n).descendants) : x ∈ (seen (caseElement c)).descendants := by
  refine mem_descendants_seen (n := planModel c) List.mem_cons_self ?_
  refine mem_descendants_seen (n := mainStage c) (List.mem_cons_of_mem _ List.mem_cons_self) ?_
  exact mem_descendants_seen hn hx

/-- What is read from the human task of a node is read from the case. -/
theorem mem_descendants_of_humanTask (hs : c.Sound) (hn : n ∈ c.diagram.inOrder)
    (hk : n.kind = .task) {x : Content} (hx : x ∈ (seen (humanTask c n)).descendants) :
    x ∈ (seen (caseElement c)).descendants := by
  have hmem : ∀ {members : List (Node α)} {nested : List Piece}, n ∈ members →
      humanTask c n ∈ stageContentWith c members nested := by
    intro members nested h
    refine List.mem_append_right _ (List.mem_map_of_mem ?_)
    exact List.mem_filter.2 ⟨h, by simp [hk]⟩
  rcases Diagram.mem_inOrder.1 hn with hn | ⟨m, hm, hn⟩
  · exact mem_descendants_of_mainStage (hmem hn) hx
  · have hstage : m.kind = .stage := by
      cases hm' : m.kind with
      | stage => rfl
      | task => exact absurd hn (by rw [children_eq_nil hs.toRouted hm hm']; exact List.not_mem_nil)
    have hnested : element "stage" [("id", Identifier.stageId m.slug), ("name", m.name)]
        (stageContentWith c m.children (nestedStages c m.children)) ∈
          stageContent c c.diagram.nodes := by
      refine List.mem_append_left _ (List.mem_append_right _ ?_)
      rw [nestedStages_eq_flatMap]
      refine List.mem_flatMap.2 ⟨m, hm, ?_⟩
      rw [nestedStage_eq, if_pos hstage]
      exact List.mem_cons_self
    exact mem_descendants_of_mainStage hnested (mem_descendants_seen (hmem hn) hx)

omit [Coordinate α] in
theorem mem_descendants_seen_self (name : Text) (attributes : List (Text × Text))
    (children : List Piece) :
    seen (element name attributes children) ∈
      (seen (element name attributes children)).descendants := by
  rw [element, seen_element]
  exact Content.mem_descendants_self _ _ _ _

/-- The class of a listener in the case is read from the document. -/
theorem class_mem_seenRoot {n : Piece} {class? : Text}
    (hn : seen n ∈ (seen (caseElement c)).descendants) (h : (seen n).class? = some class?) :
    class? ∈ (seenRoot c).descendants.filterMap Content.class? :=
  List.mem_filterMap.2 ⟨_, Content.mem_descendants_of_mem List.mem_cons_self hn, h⟩

/-- The main stage has the listener of stages. -/
theorem lifecycleListener_mem_seenRoot (c : Context α) :
    lifecycleListener ∈ (seenRoot c).descendants.filterMap Content.class? := by
  refine class_mem_seenRoot (n := element "flowable:planItemLifecycleListener"
    [("sourceState", "available"), ("targetState", "active"), ("class", lifecycleListener)] [])
    ?_ rfl
  refine mem_descendants_of_mainStage (n := stageExtensions) ?_ ?_
  · simp [stageContent, stageContentWith]
  · exact mem_descendants_seen List.mem_cons_self (mem_descendants_seen_self ..)

/-- The task of a node has the listeners of tasks. -/
theorem taskListeners_mem_seenRoot (hs : c.Sound) {t : Task} (hn : n ∈ c.diagram.inOrder)
    (hk : n.kind = .task) (ht : c.logic.task? n.slug = some t) :
    flowListener ∈ (seenRoot c).descendants.filterMap Content.class? ∧
      statusListener ∈ (seenRoot c).descendants.filterMap Content.class? := by
  have hlistener : ∀ (event class? : Text) (children : List Piece),
      taskListener event class? children ∈
        ([element "modeler:flowable-idm-initiator" [] [.cdata (.ok "true")],
          taskListener "create" flowListener [],
          taskListener "complete" statusListener [statusRules t.outcomes],
          taskListener "complete" flowListener []] : List Piece) →
      class? ∈ (seenRoot c).descendants.filterMap Content.class? := by
    intro event class? children hmem
    refine class_mem_seenRoot (n := taskListener event class? children) ?_ rfl
    refine mem_descendants_of_humanTask hs hn hk ?_
    rw [humanTask_eq ht]
    exact mem_descendants_seen List.mem_cons_self
      (mem_descendants_seen hmem (mem_descendants_seen_self ..))
  exact ⟨hlistener "create" flowListener [] (List.mem_cons_of_mem _ List.mem_cons_self),
    hlistener "complete" statusListener [statusRules t.outcomes]
      (List.mem_cons_of_mem _ (List.mem_cons_of_mem _ List.mem_cons_self))⟩

/-- Nothing is missing in a document: it has a task, and a task has its listeners. -/
theorem structureErrors_seenRoot (hs : c.Sound) : structureErrors (seenRoot c) = [] := by
  obtain ⟨t, ht⟩ := List.exists_mem_of_ne_nil _ hs.logic.tasks_ne_nil
  obtain ⟨n, hn, hshows⟩ := hs.diagram.exists_showsTask hs.logic ht
  have htask : c.logic.task? n.slug = some t := by rw [hshows.slug, hs.logic.task?_eq_some ht]
  have hlifecycle := lifecycleListener_mem_seenRoot c
  obtain ⟨hflow, hstatus⟩ := taskListeners_mem_seenRoot hs hn hshows.kind htask
  have hname : rootName (seenRoot c) =
      (Text.ofString "definitions", (declarations namespaces).map Prod.snd) := rfl
  have hengine : engineNamespace ∈ (declarations namespaces).map Prod.snd := by decide
  have hdiagram : ((seenRoot c).child? diagramNamespace "CMMNDI").isSome = true := rfl
  unfold structureErrors
  simp only [hname, modelChild?_case, Option.bind_some, modelChild?_planModel, requiredListeners,
    List.flatMap_cons, List.flatMap_nil, hlifecycle, hflow, hstatus, hengine, hdiagram,
    Option.isSome_some]
  rfl

/-- The task listeners in a document are those of the flow, or hand over rules for outcomes. -/
theorem listener_of_mem (hs : c.Sound) {x : Content × Option Text}
    (hx : x ∈ (seenRoot c).descendantsUnder owningTask none)
    (h : x.1.isElement engineNamespace "taskListener" = true) :
    ∃ event class? children, x.1 = seen (taskListener event class? children) ∧
      (class? = flowListener ∨ class? = statusListener ∧
        ∃ outcomes, Outcome.AreScalar outcomes ∧ children = [statusRules outcomes]) := by
  have helement : ∀ {k : Nat} {n : Piece} {above : Option Text}, n.Within IsKnown k →
      x ∈ (seen n).descendantsUnder owningTask above →
      ∃ name attributes children, IsKnown name attributes children ∧
        x.1 = seen (.element name attributes children) := by
    intro k n above hn hx
    rcases mem_descendantsUnder_content hn hx with hnone | helement
    · rw [hnone] at h
      exact absurd h Bool.false_ne_true
    · exact helement
  obtain ⟨name, attributes, children, hknown, hseen⟩ :
      ∃ name attributes children, IsKnown name attributes children ∧
        x.1 = seen (.element name attributes children) := by
    rw [seenRoot, rootContent, Content.descendantsUnder, Content.descendantsAll_eq_flatMap,
      List.mem_cons] at hx
    rcases hx with rfl | hx
    · exact absurd h Bool.false_ne_true
    · simp only [List.flatMap_cons, List.flatMap_nil, List.append_nil, List.mem_append] at hx
      rcases hx with hx | hx
      · exact helement (isGood_caseElement hs).2 hx
      · exact helement (isGood_diagramElement hs).2 hx
  have hname : nameIn documentScope name = listenerName := by
    rw [hseen, seen_element, Content.isElement, Bool.and_eq_true, decide_eq_true_eq,
      decide_eq_true_eq] at h
    obtain ⟨hspace, hbase⟩ := h
    cases hn : nameIn documentScope name with
    | mk space base =>
      rw [hn] at hspace hbase
      rw [listenerName, ← hspace, ← hbase]
  obtain ⟨event, class?, rfl, hclass⟩ := hknown.listener hname
  refine ⟨event, class?, children, ?_, hclass⟩
  have hown : nameIn documentScope "flowable:taskListener" = listenerName := rfl
  rw [hseen, taskListener, element, seen_element, seen_element, hname, hown]
  rfl

/-- Nothing is amiss in a document. -/
theorem warnings_seenRoot (hs : c.Sound) : warnings (seenRoot c) = [] := by
  have hclass : ∀ (event class? : Text) (children : List Piece),
      plainAttribute? "class" (seen (taskListener event class? children)) = some class? :=
    fun _ _ _ => rfl
  have hmisspelled : listeners (seenRoot c) misspelledListener = [] := by
    rw [listeners, List.filter_eq_nil_iff]
    intro x hx hfound
    rw [Bool.and_eq_true, decide_eq_true_eq] at hfound
    obtain ⟨event, class?, children, hseen, hkind⟩ := listener_of_mem hs hx hfound.1
    have hnamed := hfound.2
    rw [hseen, hclass] at hnamed
    rcases hkind with rfl | ⟨rfl, -⟩
    · exact absurd (Option.some.inj hnamed) (by decide)
    · exact absurd (Option.some.inj hnamed) (by decide)
  have hreadable : ∀ x ∈ listeners (seenRoot c) statusListener,
      (Outcome.readRules? (listenerPayload x.1)).isSome = true := by
    intro x hx
    obtain ⟨hmem, hfound⟩ := List.mem_filter.1 hx
    rw [Bool.and_eq_true, decide_eq_true_eq] at hfound
    obtain ⟨event, class?, children, hseen, hkind⟩ := listener_of_mem hs hmem hfound.1
    have hnamed := hfound.2
    rw [hseen, hclass] at hnamed
    rcases hkind with rfl | ⟨rfl, outcomes, houtcomes, rfl⟩
    · exact absurd (Option.some.inj hnamed) (by decide)
    · rw [hseen, readRules?_statusListener houtcomes]
      rfl
  have hinitiator : engineAttribute? "initiatorVariableName" (seen (caseElement c)) =
      some (Text.ofString "initiator") := rfl
  unfold warnings
  rw [hmisspelled, modelChild?_case]
  simp only [hinitiator, List.map_nil, List.nil_append, List.append_eq_nil_iff]
  refine ⟨?_, if_pos rfl⟩
  rw [List.filterMap_eq_nil_iff]
  rintro ⟨⟨listener, owner⟩, i⟩ hx
  obtain ⟨rules, hrules⟩ := Option.isSome_iff_exists.1
    (hreadable _ (List.fst_mem_of_mem_zipIdx hx))
  simp only [hrules]

/-! ## The whole inspection -/

/-- An inspection finds the names of the case, its tasks, and nothing wrong. -/
theorem inspectRoot_seenRoot (hs : c.Sound) (hname : c.case.name ≠ []) :
    inspectRoot (seenRoot c) = .ok
      { errors := []
        warnings := []
        suggestions := suggestions (seenRoot c)
        caseName := some c.case.name
        applicationId := some c.case.application.identifier
        tasks := c.logic.inDiagramOrder.map fun t =>
          FoundTask.ofTask c.case c.config (c.logic.stageOf? t.slug) t } := by
  have hid : plainAttribute? "id" (seen (caseElement c)) = some c.case.id := rfl
  have hmodelId : plainAttribute? "id" (seen (planModel c)) = some c.case.planModelId := rfl
  have hcaseName : caseName c.case.id c.case.planModelId = c.case.name := by
    rw [caseName, Case.planModelId, Text.before?_append]
  have hempty : c.case.name.isEmpty = false := List.isEmpty_eq_false_iff.2 hname
  have happlication : applicationId? c.case.name c.case.id = some c.case.application.identifier := by
    rw [applicationId?, hempty, Case.id, Text.after?_append]
    rfl
  have htasks := stageTasks_mainStage hs hname [("id", c.case.mainStageId), ("name", c.case.id)]
  rw [flatMap_foundIn hs] at htasks
  unfold inspectRoot
  simp only [modelChild?_case, Option.bind_some, modelChild?_planModel, modelChild?_mainStage, hid,
    hmodelId, Option.getD_some, hcaseName, happlication, mainStage, htasks, ok_bind, hempty,
    structureErrors_seenRoot hs, warnings_seenRoot hs]
  rfl

end

end Inspection

end CasePlan
