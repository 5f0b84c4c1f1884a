import CasePlan.Json.Writer
import CasePlan.Logic.Basic

/-!
# Workflow configurations

After a case is deployed, a configuration of its workflow is saved: its tasks and stages, and the
identifiers that the backend gave to the case and the application.  The identifiers are found in the
backend's answer; if a part of the answer is not there, `Gap` tells which.
-/

namespace CasePlan

/-- Why a part of a value is not there. -/
inductive Gap where
  /-- An object has no such member. -/
  | noMember (name : Text)
  /-- An object is asked for its first item. -/
  | noFirstMember
  /-- An array has no items. -/
  | emptyArray
  /-- A text has no characters. -/
  | emptyText
  /-- An array is asked for a member. -/
  | arrayMember
  /-- A text is asked for a member. -/
  | textMember
  /-- The value has no parts; the word tells its type. -/
  | noParts (word : Text)
  deriving DecidableEq, Repr

/-- The wording of a gap. -/
def Gap.message : Gap → Text
  | .noMember name => name.quoted
  | .noFirstMember => "0"
  | .emptyArray => "list index out of range"
  | .emptyText => "string index out of range"
  | .arrayMember => "list indices must be integers or slices, not str"
  | .textMember => "string indices must be integers, not 'str'"
  | .noParts word => "'" ++ word ++ "' object is not subscriptable"

namespace Json

/-- The member of a value, or why there is none. -/
def member (name : Text) : Json → Except Gap Json
  | obj members =>
    match Table.get? name members with
    | some value => .ok value
    | none => .error (.noMember name)
  | arr _ => .error .arrayMember
  | str _ => .error .textMember
  | value => .error (.noParts value.typeWord)

/-- The first item of a value, or why there is none. -/
def first : Json → Except Gap Json
  | arr (x :: _) => .ok x
  | arr [] => .error .emptyArray
  | str (c :: _) => .ok (str [c])
  | str [] => .error .emptyText
  | obj _ => .error .noFirstMember
  | value => .error (.noParts value.typeWord)

end Json

/-- Which application a case is deployed for, and what the case is called there. -/
structure DeploymentTarget where
  /-- Identifier of the application. -/
  appId : Text
  /-- Name of the application. -/
  appName : Text
  /-- Short name of the case. -/
  caseSlug : Text
  deriving DecidableEq, Repr

/-- What sets one configuration apart from others with the same content. -/
structure Stamp where
  /-- Its identifier. -/
  uuid : Text
  /-- When it was made, as ISO text. -/
  generatedAt : Text
  deriving DecidableEq, Repr

namespace Workflow

/-- A task in a configuration. -/
def task (t : Task) : Json :=
  .obj [("slug", .str t.slug), ("display_name", .str t.displayName),
    ("outcomes", .arr (t.outcomes.map .str)), ("assignee", Json.ofText? t.assignee),
    ("candidateGroups", Json.ofText? t.candidateGroups), ("dueDate", Json.ofText? t.dueDate),
    ("formKey", Json.ofText? t.formKey),
    ("repetitionLimit", match t.repetitionLimit with
      | some n => .int n
      | none => .null)]

/-- A stage in a configuration. -/
def stage (s : Stage) : Json :=
  .obj [("slug", .str s.slug), ("display_name", .str s.displayName),
    ("tasks", .arr (s.members.map .str))]

/-- The name of the program in configurations. -/
def generator : Text := "cmmn-compiler"

/-- The definition of the application in the backend's answer, and the identifier of the case. -/
def definition (answer : Json) : Except Gap (Json × Json) := do
  let application ← (← answer.member "data").member "appDefinition"
  let models ← (← application.member "definition").member "cmmnModels"
  let caseId ← (← models.first).member "id"
  pure (application, caseId)

/-- The configuration of a deployed case. -/
def configuration (target : DeploymentTarget) (caseName : Text) (answer : Json) (logic : Logic)
    (stamp : Stamp) : Except Gap Json := do
  let (application, caseId) ← definition answer
  let id := application.getD "id"
  let flow : Json :=
    .obj [("name", .str caseName), ("slug", .str target.caseSlug), ("uuid", .str stamp.uuid),
      ("cmmnId", caseId), ("deploymentId", if id.isTruthy then id else .str []),
      ("relationship", .arr []), ("stages", .arr (logic.stages.map stage)),
      ("tasks", .arr (logic.tasks.map task)), ("new", .bool true)]
  let origin : Json :=
    .obj [("flow_app_id", id), ("flow_app_name", .str target.appName),
      ("flow_app_key", application.getD "key"), ("generated_by", .str generator),
      ("generated_at", .str stamp.generatedAt)]
  pure (.obj [("flow_config", .obj [(target.caseSlug, flow)]), ("application", .str target.appId),
    ("object_slug", .str target.caseSlug), ("meta_data", origin)])

end Workflow

end CasePlan
