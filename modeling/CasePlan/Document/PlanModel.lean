import CasePlan.Document.Basic
import CasePlan.Expression
import CasePlan.Outcome

/-!
# The plan model of a document

The case with its main stage.  A stage holds, in this order, its listener, a plan item for every
member, the sentries of the members, the nested stages, and the human tasks.
-/

namespace CasePlan.Document

variable {α : Type}

/-- What the identifiers of a sentry end with. -/
def sentryName (s : Sentry α) : Text := s.owner ++ Text.ofNat s.index

/-- The identifier of the criterion by which a plan item refers to a sentry. -/
def criterionId (s : Sentry α) : Text := "sid-" ++ sentryName s

/-- The listener that every stage has. -/
def stageExtensions : Piece :=
  element "extensionElements" []
    [element "flowable:planItemLifecycleListener"
      [("sourceState", "available"), ("targetState", "active"), ("class", lifecycleListener)] []]

/-- The bound on the repetitions of a task. -/
def repetitionRule (c : Context α) (slug : Text) : Piece :=
  let limit : Draft :=
    match c.logic.task? slug with
    | none => .error slug
    | some t =>
      let declared := t.repetitionLimit.getD 0
      .ok (Expression.repetition (if declared = 0 then c.config.repetitionLimit else declared))
  element "itemControl" []
    [element "repetitionRule" [("flowable:counterVariable", Expression.repetitionCounter)]
      [element "extensionElements" [] [], element "condition" [] [.cdata limit]]]

/-- Whether the plan item of a node repeats. -/
def repeats (c : Context α) (n : Node α) : Bool :=
  n.kind = .task && n.slug ∈ c.repeatable

/-- The plan item of a node. -/
def planItem (c : Context α) (n : Node α) : Piece :=
  .element "planItem"
    [("id", c.planItemId n.slug), ("name", .ok n.name), ("definitionRef", .ok (c.definitionId n))]
    ((if repeats c n then [repetitionRule c n.slug] else []) ++
      (c.sentriesOf n).map fun s =>
        element "entryCriterion"
          [("id", criterionId s), ("sentryRef", "sentry" ++ sentryName s)] [])

/-- A sentry with the events that it waits for and its condition. -/
def sentry (c : Context α) (s : Sentry α) : Piece :=
  let onParts := s.edges.zipIdx.map fun (e, place) =>
    Xml.Node.element "planItemOnPart"
      [("id", .ok ("sentryOnPart" ++ sentryName s ++ "_" ++ Text.ofNat place)),
        ("sourceRef", c.planItemId e.source)]
      [element "standardEvent" [] [.text (.ok e.event.word)]]
  let condition := if s.condition.isEmpty then [] else [Xml.Node.cdata (.ok s.condition)]
  element "sentry" [("id", "sentry" ++ sentryName s)]
    (onParts ++ [element "ifPart" [] [element "condition" [] condition]])

/-- A listener of a task. -/
def taskListener (event class? : Text) (children : List Piece) : Piece :=
  element "flowable:taskListener" [("event", event), ("class", class?)] children

/-- A text, or another one instead of the empty text. -/
def textOr (declared : Option Text) (otherwise : Text) : Text :=
  match declared with
  | some (c :: rest) => c :: rest
  | _ => otherwise

/-- An attribute that is left out when its text is absent or empty. -/
def optionalAttribute (name : Text) (value : Option Text) : List (Text × Text) :=
  match value with
  | some (c :: rest) => [(name, c :: rest)]
  | _ => []

/-- The attributes of the human task of a node. -/
def humanTaskAttributes (c : Context α) (n : Node α) (t : Task) : List (Text × Text) :=
  let who : List (Text × Text) :=
    [("id", c.definitionId n), ("name", n.name),
      ("flowable:assignee", textOr t.assignee c.config.assignee)]
  let form : List (Text × Text) :=
    [("flowable:formKey", textOr t.formKey (t.slug ++ "Form")),
      ("flowable:formFieldValidation", "true")]
  who ++ optionalAttribute "flowable:candidateGroups" t.candidateGroups ++
    optionalAttribute "flowable:dueDate" t.dueDate ++ form

/-- The human task of a node. -/
def humanTask (c : Context α) (n : Node α) : Piece :=
  match c.logic.task? n.slug with
  | none => .element "humanTask" [("id", .error n.slug)] []
  | some t =>
    element "humanTask" (humanTaskAttributes c n t)
      [element "extensionElements" []
        [element "modeler:flowable-idm-initiator" [] [.cdata (.ok "true")],
          taskListener "create" flowListener [],
          taskListener "complete" statusListener
            [element "flowable:field" [("name", "variables")]
              [element "flowable:string" [] [.cdata (.ok (Outcome.write t.outcomes))]]],
          taskListener "complete" flowListener []]]

/-- The content of a stage, given its members and the nested stages among them. -/
def stageContentWith (c : Context α) (members : List (Node α)) (nested : List Piece) :
    List Piece :=
  stageExtensions :: members.map (planItem c) ++
    members.flatMap (fun n => (c.sentriesOf n).map (sentry c)) ++ nested ++
    (members.filter (·.kind = .task)).map (humanTask c)

mutual

/-- The nested stage of a node, if the node is one. -/
def nestedStage (c : Context α) : Node α → List Piece
  | ⟨slug, name, kind, _, _, children⟩ =>
    if kind = .stage then
      [element "stage" [("id", Identifier.stageId slug), ("name", name)]
        (stageContentWith c children (nestedStages c children))]
    else []

/-- The stages among some nodes. -/
def nestedStages (c : Context α) : List (Node α) → List Piece
  | [] => []
  | n :: rest => nestedStage c n ++ nestedStages c rest

end

/-- The content of a stage with the given members. -/
def stageContent (c : Context α) (members : List (Node α)) : List Piece :=
  stageContentWith c members (nestedStages c members)

/-- The case with its plan model. -/
def caseElement (c : Context α) : Piece :=
  element "case"
    [("id", c.case.id), ("name", c.case.id), ("flowable:initiatorVariableName", "initiator")]
    [element "casePlanModel"
      [("id", c.case.planModelId), ("flowable:formKey", ""),
        ("flowable:formFieldValidation", "true")]
      [element "planItem"
          [("id", Identifier.planItemId c.case.mainItem), ("name", c.case.mainItem),
            ("definitionRef", c.case.mainStageId)] [],
        element "stage" [("id", c.case.mainStageId), ("name", c.case.id)]
          (stageContent c c.diagram.nodes)]]

end CasePlan.Document
