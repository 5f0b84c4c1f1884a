import CasePlan.Document.Basic
import CasePlan.Inspection.Markup
import CasePlan.Outcome

/-!
# Inspecting documents

`inspect` reads the document of a case, checks its structure and recommended attributes, and lists
the human tasks that its main stage refers to, nested stages included.

* Errors make a document unusable: a missing case, plan model, diagram, namespace or listener.
* Warnings point at an element that the engine will not handle as intended.
* Suggestions name optional attributes that no task has.

The rules of a listener may be any JSON.  A rule whose conditions are a number or `true` cannot be
gone through, which ends the inspection (`InspectionError.notIterable`); everything else is passed
over.
-/

namespace CasePlan

open Xml

/-- Why an inspection ends without a report. -/
inductive InspectionError where
  /-- The text of the document has surrogates, which no document is written with. -/
  | notEncodable (error : Utf8.EncodeError)
  /-- The rules of a listener hold a value that cannot be gone through item by item; the word tells
  its type. -/
  | notIterable (word : Text)
  deriving DecidableEq, Repr

/-- The wording of an inspection error. -/
def InspectionError.message : InspectionError → Text
  | .notEncodable error => error.message
  | .notIterable word => "'" ++ word ++ "' object is not iterable"

/-- A human task found in a document. -/
structure FoundTask where
  /-- The identifier of the element. -/
  id : Text
  /-- The identifier without the scope it begins with. -/
  slug : Text
  /-- Its name for readers. -/
  name : Text
  /-- Who does it. -/
  assignee : Option Text
  /-- The groups whose members may do it. -/
  candidateGroups : Option Text
  /-- When it is due. -/
  dueDate : Option Text
  /-- The form it is done with. -/
  formKey : Option Text
  /-- The outcomes that its rules name, whatever values they are. -/
  outcomes : List Json
  /-- The stage it stands in. -/
  stage : Option Text
  /-- The name of that stage. -/
  stageName : Option Text

/-- A problem that does not make a document unusable. -/
structure Warning where
  /-- The identifier of the element concerned. -/
  elementId : Option Text
  /-- What is wrong. -/
  message : Text
  deriving DecidableEq, Repr

/-- The text of a warning: after the identifier, if there is one. -/
def Warning.text (w : Warning) : Text :=
  match w.elementId with
  | some (c :: rest) => (c :: rest) ++ ": " ++ w.message
  | _ => w.message

/-- What an inspection finds. -/
structure Report where
  /-- What makes the document unusable. -/
  errors : List Text := []
  /-- What it does not make unusable. -/
  warnings : List Warning := []
  /-- What could be added. -/
  suggestions : List Text := []
  /-- The name of the case. -/
  caseName : Option Text := none
  /-- The identifier of the application. -/
  applicationId : Option Text := none
  /-- The human tasks, in the order of the plan items. -/
  tasks : List FoundTask := []

/-- Whether the document is usable. -/
def Report.isValid (r : Report) : Bool := r.errors.isEmpty

namespace Inspection

open Document

/-! ## Structure -/

/-- A child of the case model. -/
def modelChild? (name : Text) (c : Content) : Option Content := c.child? modelNamespace name

/-- An attribute of the case engine. -/
def engineAttribute? (name : Text) (c : Content) : Option Text :=
  c.attribute? (some engineNamespace) name

/-- A plain attribute. -/
def plainAttribute? (name : Text) (c : Content) : Option Text := c.attribute? none name

/-- The local name of the root, and the namespaces that it declares. -/
def rootName : Content → Text × List Text
  | .element name declared _ _ => (name.base, declared.map (·.2))
  | _ => ([], [])

/-- A line if something does not hold. -/
def lineIfNot (holds : Bool) (line : Text) : List Text := if holds then [] else [line]

/-- What the structure of the document lacks. -/
def structureErrors (root : Content) : List Text :=
  let (name, declared) := rootName root
  let case? := modelChild? "case" root
  let classes := root.descendants.filterMap Content.class?
  lineIfNot (name = ("definitions" : Text)) "Missing definitions element" ++
    lineIfNot (engineNamespace ∈ declared) "Missing Flowable namespace" ++
    lineIfNot case?.isSome "Missing case element" ++
    lineIfNot (case?.bind (modelChild? "casePlanModel")).isSome "Missing casePlanModel element" ++
    requiredListeners.flatMap (fun listener =>
      lineIfNot (listener ∈ classes) ("Missing required Flowable class: " ++ listener)) ++
    lineIfNot (root.child? diagramNamespace "CMMNDI").isSome "Missing CMMN diagram information"

/-! ## Quality -/

/-- A name of the status listener that the engine does not know. -/
def misspelledListener : Text := "org.flowable.ui.application.task.listener.SetVariable"

/-- The wording for a listener with that name. -/
def misspelledMessage : Text :=
  "Found 'SetVariable' - should be 'SetVarriable' (with double 'r') for Flowable compatibility"

/-- Hands the identifier of a human task down to its content. -/
def owningTask (c : Content) (above : Option Text) : Option Text :=
  if c.isElement modelNamespace "humanTask" then plainAttribute? "id" c else above

/-- The task listeners of a class, each with the identifier of the human task around it. -/
def listeners (root : Content) (class? : Text) : List (Content × Option Text) :=
  (root.descendantsUnder owningTask none).filter fun (c, _) =>
    c.isElement engineNamespace "taskListener" && plainAttribute? "class" c = some class?

/-- The rules of a listener as text, without blanks around it. -/
def listenerPayload (listener : Content) : Text :=
  let strings := listener.children.flatMap fun c =>
    if c.isElement engineNamespace "field" then
      c.children.filter (Content.isElement engineNamespace "string")
    else []
  match strings with
  | s :: _ => s.leadingText.strip
  | [] => []

/-- The warnings about a document. -/
def warnings (root : Content) : List Warning :=
  let misspelled := (listeners root misspelledListener).map fun (_, owner) =>
    (⟨owner, misspelledMessage⟩ : Warning)
  let unreadable := (listeners root statusListener).zipIdx.filterMap fun ((listener, owner), i) =>
    match Outcome.readRules? (listenerPayload listener) with
    | some _ => none
    | none =>
      some (⟨owner, "Invalid JSON in SetVarriable listener " ++ Text.ofNat (i + 1)⟩ : Warning)
  let initiator := match modelChild? "case" root with
    | some c =>
      if engineAttribute? "initiatorVariableName" c = some "initiator" then []
      else
        [(⟨plainAttribute? "id" c,
          "Missing recommended attribute flowable:initiatorVariableName=\"initiator\""⟩ : Warning)]
    | none => []
  misspelled ++ unreadable ++ initiator

/-- Whether an attribute is there and not empty. -/
def isGiven (value : Option Text) : Bool := value.any (!·.isEmpty)

/-- The suggestions for a document. -/
def suggestions (root : Content) : List Text :=
  let tasks := root.descendants.filter (Content.isElement modelNamespace "humanTask")
  lineIfNot (tasks.any fun t => engineAttribute? "formFieldValidation" t = some "true")
      "Consider adding form field validation for better user experience" ++
    lineIfNot (tasks.any fun t => isGiven (engineAttribute? "dueDate" t))
      "Consider adding due dates to tasks for better tracking" ++
    lineIfNot (tasks.any fun t => isGiven (engineAttribute? "candidateGroups" t))
      "Consider using candidate groups for better task assignment"

/-! ## Identity -/

/-- The name of the case: what precedes `123` in the identifier of its plan model, or else what
precedes the first low line in its own. -/
def caseName (caseId planModelId : Text) : Text :=
  match Text.before? "123" planModelId with
  | some name => name
  | none => Text.upTo (CodePoint.ofChar '_') caseId

/-- The identifier of the application: what follows the name and a low line. -/
def applicationId? (name caseId : Text) : Option Text :=
  if name.isEmpty then none else Text.after? (name ++ "_") caseId

/-! ## Tasks -/

/-- The text, unless it is absent or empty. -/
def filled (value : Option Text) : Option Text := value.filter (!·.isEmpty)

/-- The values that a list is gone through; a text and an object have items that are no objects. -/
def iterate (value : Json) : Except InspectionError (List Json) :=
  if !value.isTruthy then .ok []
  else
    match value with
    | .arr items => .ok items
    | .str _ | .obj _ => .ok []
    | v => .error (.notIterable v.typeWord)

/-- Adds a value unless it is empty or there already. -/
def addOutcome (outcomes : List Json) (value : Json) : List Json :=
  if value.isTruthy && !outcomes.any (Json.same value) then outcomes ++ [value] else outcomes

/-- The outcome that a condition asks for. -/
def conditionOutcome? (condition : Json) : Option Json :=
  match condition with
  | .obj _ =>
    if (condition.getD "key").text? = some Expression.outcomeVariable then
      some (condition.getD "value")
    else none
  | _ => none

/-- Adds the outcomes that rules ask for. -/
def ruleOutcomes (outcomes : List Json) : List Json → Except InspectionError (List Json)
  | [] => .ok outcomes
  | rule :: rest =>
    match rule with
    | .obj _ =>
      match iterate (rule.getD "conditions") with
      | .error e => .error e
      | .ok conditions =>
        ruleOutcomes ((conditions.filterMap conditionOutcome?).foldl addOutcome outcomes) rest
    | _ => ruleOutcomes outcomes rest

/-- The outcomes that the status listeners of a human task ask for. -/
def taskOutcomes (task : Content) : Except InspectionError (List Json) :=
  ((listeners task statusListener).map (·.1)).foldlM (fun outcomes listener =>
    ruleOutcomes outcomes ((Outcome.readRules? (listenerPayload listener)).getD [])) []

/-- Where tasks are found: what their identifiers begin with, and the stage around them. -/
structure Place where
  /-- What identifiers begin with. -/
  scope : Text
  /-- The stage. -/
  stage : Option Text := none
  /-- Its name. -/
  stageName : Option Text := none

/-- The human task that an element is. -/
def foundTask (place : Place) (task : Content) : Except InspectionError FoundTask := do
  let id := (plainAttribute? "id" task).getD []
  let slug := if place.scope.isEmpty then id else (Text.after? place.scope id).getD id
  let outcomes ← taskOutcomes task
  pure
    { id
      slug := if slug.isEmpty then id else slug
      name := (filled (plainAttribute? "name" task)).getD slug
      assignee := engineAttribute? "assignee" task
      candidateGroups := engineAttribute? "candidateGroups" task
      dueDate := engineAttribute? "dueDate" task
      formKey := filled (engineAttribute? "formKey" task)
      outcomes := if outcomes.isEmpty then [.str "completed"] else outcomes
      stage := place.stage
      stageName := place.stageName }

/-- The place inside a nested stage. -/
def insideStage (stage : Content) : Place :=
  let id := (plainAttribute? "id" stage).getD []
  let slug := (Text.before? "stage" id).getD id
  ⟨slug, some slug, some ((filled (plainAttribute? "name" stage)).getD slug)⟩

/-- The tasks that the plan items of a stage refer to, given what its definitions stand for. -/
def referredTasks (definitions : List (Option Text × Except InspectionError (List FoundTask))) :
    List Content → Except InspectionError (List FoundTask)
  | [] => .ok []
  | c :: rest =>
    if c.isElement modelNamespace "planItem" then
      match Table.last? (plainAttribute? "definitionRef" c) definitions with
      | none => referredTasks definitions rest
      | some (.error e) => .error e
      | some (.ok found) => (referredTasks definitions rest).map (found ++ ·)
    else referredTasks definitions rest

mutual

/-- What a child of a stage defines: its identifier and the tasks that it stands for. -/
def definition? (place : Place) :
    Content → Option (Option Text × Except InspectionError (List FoundTask))
  | .element name declared attributes children =>
    let here := Content.element name declared attributes children
    if here.isElement modelNamespace "stage" then
      some (plainAttribute? "id" here,
        referredTasks (definitions (insideStage here) children) children)
    else if here.isElement modelNamespace "humanTask" then
      some (plainAttribute? "id" here, (foundTask place here).map ([·]))
    else none
  | _ => none

/-- What the children of a stage define. -/
def definitions (place : Place) :
    List Content → List (Option Text × Except InspectionError (List FoundTask))
  | [] => []
  | c :: rest => (definition? place c).toList ++ definitions place rest

end

/-- The tasks of a stage in the order of its plan items, nested stages included. -/
def stageTasks (place : Place) (stage : Content) : Except InspectionError (List FoundTask) :=
  referredTasks (definitions place stage.children) stage.children

/-! ## The whole inspection -/

/-- What is found in the document with a root element. -/
def inspectRoot (root : Content) : Except InspectionError Report := do
  let case? := modelChild? "case" root
  let planModel? := case?.bind (modelChild? "casePlanModel")
  let (name, application?) : Text × Option Text :=
    match case? with
    | none => ([], none)
    | some c =>
      let caseId := (plainAttribute? "id" c).getD []
      let name := caseName caseId ((planModel?.bind (plainAttribute? "id")).getD [])
      (name, applicationId? name caseId)
  let tasks ← match planModel?.bind (modelChild? "stage") with
    | some stage => stageTasks { scope := name } stage
    | none => pure []
  pure
    { errors := structureErrors root
      warnings := warnings root
      suggestions := suggestions root
      caseName := if name.isEmpty then none else some name
      applicationId := application?
      tasks }

end Inspection

/-- The error for a document that is not well-formed. -/
def unreadableDocument : Text := "XML parsing error"

/-- What is found in a document given as bytes. -/
def inspectBytes (bytes : List UInt8) : Except InspectionError Report :=
  match Content.ofBytes? bytes with
  | some root => Inspection.inspectRoot root
  | none => .ok { errors := [unreadableDocument] }

/-- What is found in a document given as text, which is read from its UTF-8 form. -/
def inspect (document : Text) : Except InspectionError Report :=
  match Utf8.encode? document with
  | .ok bytes => inspectBytes bytes
  | .error e => .error (.notEncodable e)

end CasePlan
