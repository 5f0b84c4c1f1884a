import CasePlan.Compilation
import CasePlan.Inspection.Data
import CasePlan.Inspection.Extraction
import CasePlan.Logic.Payload
import CasePlan.Service.Basic
import CasePlan.Service.Endpoint
import CasePlan.Template.Basic

/-!
# Answering requests

`respond` answers a request to the service.  A body of another shape than the endpoint asks for is
answered with all issues (status 422), an input that is rejected with the rejection (400), a
template that does not exist with its identifier (404).  What fails in any other way is a server
error.

`serve` answers a request and keeps the library of templates from the first request on that needs it.
-/

namespace CasePlan

/-- A rejection as data. -/
def Rejection.toJson (r : Rejection) : Json :=
  let index : Json := match r.index? with
    | some n => .int n
    | none => .null
  .obj [("error", .str r.message), ("index", index), ("field", .ofText? r.field?)]

namespace Service

open Schema

/-! ## What endpoints ask for -/

/-- A description to compile, with the names of the case and the application. -/
structure CompileQuery where
  /-- The description. -/
  logic : List (Text × Json)
  /-- The name of the case. -/
  caseName : Text
  /-- The application. -/
  application : Application
  /-- The settings. -/
  config : Config

/-- A description to compile, by its shape. -/
def CompileQuery.ofJson : Json → Checked CompileQuery
  | .obj members =>
    let make (logic : List (Text × Json)) (caseName identifier slug : Text)
        (layoutMode : LayoutMode) (prettyPrint : Bool) : CompileQuery :=
      ⟨logic, caseName, ⟨identifier, slug⟩, { layoutMode, prettyPrint }⟩
    make
      <$> field ["businessLogic", "business_logic"] none Schema.members members
      <*> field ["caseName", "case_name"] none filledText members
      <*> field ["applicationId", "application_id"] none filledText members
      <*> field ["applicationSlug", "application_slug"] (some "app") text members
      <*> field ["layout"] (some .alternating)
        (choice (LayoutMode.all.map fun m => (m.word, m))) members
      <*> field ["prettyPrint", "pretty_print"] (some true) truth members
  | _ => .fault .members

/-- A document, by its shape. -/
def documentOf : Json → Checked Text
  | .obj members => field ["xml"] none filledText members
  | _ => .fault .members

/-! ## Bodies -/

/-- An issue as it is answered. -/
def issueData (i : Issue) : Json :=
  .obj [("loc", .str i.location), ("type", .str i.cause.name), ("msg", .str i.cause.message)]

/-- The response that lists issues. -/
def issuesResponse (issues : List Issue) : Response :=
  .detail 422 (.arr (issues.map issueData))

/-- The value that an issue is about: the member that it names, or the whole body. -/
def issueValue (body : Json) (i : Issue) : Json :=
  match i.path, i.cause with
  | _, .missing | [], _ => body
  | name :: _, _ => body.getD name

/-- Reads a body of a shape and answers it.  Issues are answered with the values that they are
about, so these have to be sendable. -/
def withBody {α : Type} (text : Text) (shape : Json → Checked α) (answer : α → Response) :
    Response :=
  match text with
  | [] => issuesResponse [⟨["body"], .missing⟩]
  | c :: rest =>
    match Json.read (if c.val = 0xFEFF then rest else c :: rest) with
    | .error fault => issuesResponse [⟨["body", Text.ofNat fault.offset], .json⟩]
    | .ok body =>
      match shape body with
      | .good value => answer value
      | .bad issues =>
        if issues.all fun i => isSendable (issueValue body i) then
          issuesResponse (issues.map fun i => { i with path := "body" :: i.path })
        else .serverError

/-! ## Endpoints -/

/-- What is compiled for a query. -/
def CompileQuery.compiled (q : CompileQuery) : Except CompileError Compiled :=
  compile q.config (Case.make (.str q.caseName) q.application.check) (Logic.accept (.obj q.logic))

/-- A compiled case as data. -/
def compiledData (q : CompileQuery) (compiled : Compiled) : Json :=
  let sentryCount : Nat := (compiled.sentries.flatMap (·.2)).length
  .obj [("case_id", .str (q.caseName ++ "_" ++ q.application.identifier)),
    ("xml", .str compiled.document), ("task_count", .int compiled.logic.tasks.length),
    ("sentry_count", .int sentryCount)]

/-- Compiles a description. -/
def compileResponse (q : CompileQuery) : Response :=
  match q.compiled with
  | .error (.input (.rejected r)) => .detail 400 r.toJson
  | .error _ => .serverError
  | .ok compiled => .json 200 (compiledData q compiled)

/-- What is found in a document. -/
def reportData (r : Report) : Json :=
  .obj [("is_valid", .bool r.isValid), ("errors", .arr (r.errors.map .str)),
    ("warnings", .arr (r.warnings.map (.str ·.text))),
    ("suggestions", .arr (r.suggestions.map .str)), ("case_name", .ofText? r.caseName),
    ("application_id", .ofText? r.applicationId), ("tasks", .arr (r.tasks.map (·.toJson)))]

/-- Inspects a document. -/
def inspectResponse (document : Text) : Response :=
  match CasePlan.inspect document with
  | .ok report => .json 200 (reportData report)
  | .error _ => .serverError

/-- Takes a description out of a document. -/
def extractResponse (document : Text) : Response :=
  match CasePlan.extract document with
  | .ok logic => .json 200 logic.toJson
  | .error (.structural errors) => .detail 422 (.obj [("errors", .arr (errors.map .str))])
  | .error _ => .serverError

/-- Lists templates. -/
def templatesResponse (library : Library) : Response :=
  let summary (t : Template) : Json :=
    .obj [("id", .str t.id), ("name", .str t.name), ("description", .str t.description)]
  .json 200 (.arr (library.templates.map summary))

/-- Gives a template. -/
def templateResponse (library : Library) (id : Text) : Response :=
  match library.find? id with
  | some t => .json 200 t.toJson
  | none => .detail 404 (.str ("Template not found: " ++ id))

/-- The version of the service. -/
def version : Text := "0.1.0"

/-- A word about the service. -/
def rootResponse : Response :=
  .json 200 (.obj [("service", .str "CMMN Compiler API"), ("version", .str version),
    ("docs", .str "/docs"), ("redoc", .str "/redoc")])

/-- The answer of an endpoint to a body. -/
def Endpoint.answer (library : Library) (body : Text) : Endpoint → Response
  | .root => rootResponse
  | .compile => withBody body CompileQuery.ofJson compileResponse
  | .inspect => withBody body documentOf inspectResponse
  | .extract => withBody body documentOf extractResponse
  | .templates => templatesResponse library
  | .template id => templateResponse library id

/-- The answer of what a request leads to. -/
def answerTo (library : Library) (request : Request) : Response :=
  match Endpoint.ofPath? (decodePath request.path) with
  | none => .detail 404 (.str "Not Found")
  | some endpoint =>
    if request.method = endpoint.method then endpoint.answer library request.body
    else .detail 405 (.str "Method Not Allowed")

/-- The answer to a request. -/
def respond (library : Library) (request : Request) : Response :=
  let settled := (answerTo library request).settle
  if request.method = ("HEAD" : Text) then { settled with body := .text [] } else settled

/-! ## A running service -/

/-- Whether a request is answered from the library. -/
def Request.asksLibrary (request : Request) : Bool :=
  match Endpoint.ofPath? (decodePath request.path) with
  | none => false
  | some endpoint => request.method = endpoint.method && endpoint.usesLibrary

/-- Answers a request and keeps the shelf, whose library is loaded by the first request that is answered
from it. -/
def serve (shelf : Shelf) (load : Unit → Library) (request : Request) : Response × Shelf :=
  if request.asksLibrary then
    let (library, after) := shelf.library load
    (respond library request, after)
  else (respond [] request, shelf)

/-- Answers requests one after another; for each, `load` is what the directory holds by then. -/
def serveAll (shelf : Shelf) : List ((Unit → Library) × Request) → List Response × Shelf
  | [] => ([], shelf)
  | (load, request) :: rest =>
    let (response, after) := serve shelf load request
    let (responses, last) := serveAll after rest
    (response :: responses, last)

end Service

end CasePlan
