import CasePlan.Inspection.Report
import CasePlan.Logic.Validation

/-!
# Business logic out of documents

`extract` turns the tasks that an inspection finds into a description: nested stages become stages,
and all tasks follow one another in one sequential pattern.  A document with structural errors, or
without tasks, has no description.
-/

namespace CasePlan

/-- Why no description comes out of a document. -/
inductive ExtractionError where
  /-- The document has structural errors, or no tasks. -/
  | structural (errors : List Text)
  /-- The document cannot be inspected. -/
  | inspection (error : InspectionError)
  /-- What is found is no description. -/
  | description (error : ParseError)

/-- The wording of structural errors. -/
def structuralMessage (errors : List Text) : Text :=
  match errors with
  | [] => "Invalid CMMN document"
  | errors => Text.join "; " errors

namespace Inspection

/-- A found task as data; texts that are absent or empty are left out. -/
def taskData (t : FoundTask) : Json :=
  let optional (name : Text) (value : Option Text) : List (Text × Json) :=
    match filled value with
    | some v => [(name, .str v)]
    | none => []
  let required : List (Text × Json) :=
    [("slug", .str t.slug), ("displayName", .str t.name), ("outcomes", .arr t.outcomes)]
  .obj (required ++ optional "assignee" t.assignee ++
    optional "candidateGroups" t.candidateGroups ++ optional "dueDate" t.dueDate ++
    optional "formKey" t.formKey)

/-- The slugs of the stages that found tasks stand in, each once. -/
def stageSlugs (tasks : List FoundTask) : List Text :=
  (tasks.filterMap fun t => filled t.stage).eraseDups

/-- The stage with a slug as data: its members, and the name that its first task gives. -/
def stageData (tasks : List FoundTask) (slug : Text) : Json :=
  let members := tasks.filter fun t => t.stage = some slug
  let name : Json := match (members.head?).bind (·.stageName) with
    | some n => .str n
    | none => .null
  .obj [("slug", .str slug), ("displayName", name), ("tasks", .arr (members.map (.str ·.slug)))]

/-- Found tasks as the data of a description. -/
def logicData (tasks : List FoundTask) : Json :=
  let chain : Json :=
    .obj [("type", .str "sequential"), ("tasks", .arr (tasks.map (.str ·.slug)))]
  .obj [("tasks", .arr (tasks.map taskData)),
    ("patterns", .arr (if 1 < tasks.length then [chain] else [])),
    ("stages", .arr ((stageSlugs tasks).map (stageData tasks)))]

end Inspection

/-- The description in an inspected document. -/
def Report.toLogic (report : Report) : Except ExtractionError Logic :=
  if !report.isValid then .error (.structural report.errors)
  else if report.tasks.isEmpty then .error (.structural ["Document defines no human tasks"])
  else (Logic.parse (Inspection.logicData report.tasks)).mapError .description

/-- The description in a document given as bytes. -/
def extractBytes (bytes : List UInt8) : Except ExtractionError Logic :=
  match inspectBytes bytes with
  | .error e => .error (.inspection e)
  | .ok report => report.toLogic

/-- The description in a document given as text. -/
def extract (document : Text) : Except ExtractionError Logic :=
  match inspect document with
  | .error e => .error (.inspection e)
  | .ok report => report.toLogic

end CasePlan
