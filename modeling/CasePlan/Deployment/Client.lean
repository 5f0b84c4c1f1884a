import CasePlan.Deployment.Config
import CasePlan.Deployment.Workflow
import CasePlan.Json.Reader
import CasePlan.Text.Utf8

/-!
# Deploying cases

Deploying takes two requests to the backend: one uploads the document of a case, the other saves the
configuration of its workflow.  Requests and replies are values here; whoever runs a deployment
carries over every request that is made and reads the bodies of the answers, so that a `Body` is what
reading it comes to, as a text and as JSON.  Nothing is assumed of either.

* `deployRequest` and `saveRequest` make the requests, `Reply.result` takes a reply.
* `Body.received`: what reading comes to if a body arrives and its charset is known.
* `Client` keeps the connections: a request goes over the last one, or over a new one if that is
  closed.
-/

namespace CasePlan

/-- A part of an uploaded form. -/
structure FormPart where
  /-- Its name. -/
  name : Text
  /-- The name of the file that it is. -/
  fileName : Option Text := none
  /-- The type of its content. -/
  contentType : Option Text := none
  /-- Its content. -/
  content : Text
  deriving DecidableEq, Repr

/-- What a request carries. -/
inductive Payload where
  /-- A form. -/
  | form (parts : List FormPart)
  /-- A value as JSON. -/
  | json (value : Json)

/-- A request to the backend. -/
structure Request where
  /-- Its address. -/
  url : Text
  /-- Its headers, in order. -/
  headers : List (Text × Text)
  /-- What it carries. -/
  payload : Payload

/-! ## Replies -/

/-- Why the body of an answer cannot be read. -/
inductive BodyFault where
  /-- It does not arrive in time. -/
  | timeout
  /-- The connection is lost, with the reason. -/
  | failure (reason : Text)
  /-- Its bytes are no text in the charset of the answer. -/
  | notText (reason : Text)
  /-- Its text is no JSON. -/
  | notJson (fault : Json.Fault)
  deriving DecidableEq, Repr

/-- The body of an answer, by what reading it comes to. -/
structure Body where
  /-- What it is read as if a text is wanted. -/
  asText : Except BodyFault Text
  /-- What it is read as if JSON is wanted. -/
  asJson : Except BodyFault Json

namespace Body

variable {β : Type}

/-- Content without the blanks at either end. -/
def strip (isBlank : β → Bool) (content : List β) : List β :=
  ((content.dropWhile isBlank).reverse.dropWhile isBlank).reverse

/-- A body whose content arrives, in a charset with some blanks that is decoded so.  As JSON a blank
body is `null`, and blanks at the ends do not count. -/
def received (isBlank : β → Bool) (decode : List β → Except Text Text) (content : List β) : Body where
  asText := (decode content).mapError .notText
  asJson :=
    match strip isBlank content with
    | [] => .ok .null
    | b :: rest =>
      match decode (b :: rest) with
      | .error reason => .error (.notText reason)
      | .ok t => (Json.read t).mapError .notJson

/-- A body that arrives as a text. -/
def text (t : Text) : Body :=
  received (fun c => c.val = 0x20 ∨ 0x09 ≤ c.val ∧ c.val ≤ 0x0D) .ok t

/-- A body that arrives as a value. -/
def value (v : Json) : Body := ⟨.ok v.write, .ok v⟩

end Body

/-- What comes of a request. -/
inductive Reply where
  /-- An answer with a status. -/
  | answer (status : Int) (body : Body)
  /-- No answer in time. -/
  | timeout
  /-- No connection, with the reason. -/
  | failure (reason : Text)

/-- Why a deployment ends early. -/
inductive DeploymentError where
  /-- The backend refuses the request. -/
  | refused (status : Int)
  /-- The backend does not answer in time. -/
  | timeout (url : Text)
  /-- The backend cannot be reached. -/
  | unreachable (reason : Text)
  /-- The answer lacks the definition of the application. -/
  | incomplete (gap : Gap)
  /-- The answer is no text. -/
  | notText (reason : Text)
  /-- The answer is no JSON. -/
  | notJson (fault : Json.Fault)
  /-- The document has surrogates. -/
  | notEncodable (error : Utf8.EncodeError)
  deriving DecidableEq, Repr

namespace DeploymentError

/-- The wording of a deployment error. -/
def message : DeploymentError → Text
  | refused status => "HTTP error! status: " ++ Text.ofInt status
  | timeout url => "Timeout calling " ++ url
  | unreachable reason => "Deployment API call failed: " ++ reason
  | incomplete gap => "Deployment response is missing the app definition: " ++ gap.message
  | notText reason => reason
  | notJson fault => fault.message
  | notEncodable error => error.message

/-- The status of the answer that caused an error. -/
def status? : DeploymentError → Option Int
  | refused status => some status
  | _ => none

/-- What the client makes of a fault in the body of an answer from an address: it knows time limits
and lost connections, and passes anything else on as it is. -/
def ofFault (url : Text) : BodyFault → DeploymentError
  | .timeout => timeout url
  | .failure reason => unreachable reason
  | .notText reason => notText reason
  | .notJson fault => notJson fault

/-- Whether an error is one that the client words itself, and does not pass on. -/
def isReported : DeploymentError → Bool
  | notText _ | notJson _ | notEncodable _ => false
  | _ => true

end DeploymentError

/-- The value that a reply to a request holds.  The body of a refusal is read for the log only, but it
is read first. -/
def Reply.result (url : Text) : Reply → Except DeploymentError Json
  | .timeout => .error (.timeout url)
  | .failure reason => .error (.unreachable reason)
  | .answer status body =>
    if 300 ≤ status then
      match body.asText with
      | .error fault => .error (.ofFault url fault)
      | .ok _ => .error (.refused status)
    else body.asJson.mapError (.ofFault url)

namespace DeploymentConfig

/-- The headers of every request. -/
def headers (config : DeploymentConfig) : List (Text × Text) :=
  let authorization : List (Text × Text) :=
    match config.token with
    | some (c :: rest) => [("Authorization", "Bearer " ++ (c :: rest))]
    | _ => []
  ("accept", "application/json, text/plain, */*") :: authorization

/-- The file name of an uploaded document. -/
def documentFileName (caseSlug : Text) : Text := caseSlug ++ "flowableCase.cmmn.xml"

/-- The request that uploads the document of a case. -/
def deployRequest (config : DeploymentConfig) (target : DeploymentTarget) (document : Text) :
    Except DeploymentError Request :=
  match Utf8.encode? document with
  | .error e => .error (.notEncodable e)
  | .ok _ =>
    let parts : List FormPart :=
      [{ name := "files"
         fileName := some (documentFileName target.caseSlug)
         contentType := some "application/octet-stream"
         content := document },
        { name := "app_name", content := target.appName },
        { name := "amoga_app_id", content := target.appId }]
    .ok
      { url := config.baseUrl ++ "/api/v1/work/tenant/sdk/application/app/cmmn/deploy"
        headers := config.headers
        payload := .form parts }

/-- The request that saves the configuration of a deployed case. -/
def saveRequest (config : DeploymentConfig) (target : DeploymentTarget) (caseName : Text)
    (answer : Json) (logic : Logic) (stamp : Stamp) : Except DeploymentError Request :=
  match Workflow.configuration target caseName answer logic stamp with
  | .error gap => .error (.incomplete gap)
  | .ok value =>
    .ok
      { url := config.baseUrl ++ "/api/v2/work/flows/" ++ target.appId
        headers := config.headers
        payload := .json (.arr [value]) }

end DeploymentConfig

/-! ## Connections -/

/-- A connection to the backend. -/
structure Connection where
  /-- Seconds to wait for an answer. -/
  timeout : Float
  /-- Whether it is closed. -/
  isClosed : Bool := false

/-- A client with its connections, the latest first. -/
structure Client where
  /-- How the backend is reached. -/
  config : DeploymentConfig
  /-- The connections. -/
  connections : List Connection := []

namespace Client

/-- Whether a connection is open. -/
def isConnected (c : Client) : Bool :=
  match c.connections with
  | [] => false
  | latest :: _ => !latest.isClosed

/-- Opens a connection unless one is open. -/
def connect (c : Client) : Client :=
  if c.isConnected then c
  else { c with connections := { timeout := c.config.timeout } :: c.connections }

/-- Closes the connection. -/
def close (c : Client) : Client :=
  match c.connections with
  | [] => c
  | latest :: rest => { c with connections := { latest with isClosed := true } :: rest }

/-- Sends a request, if one could be made, and reads the reply. -/
def send (c : Client) (request? : Except DeploymentError Request) (reply : Reply) :
    Except DeploymentError Json × Client :=
  match request? with
  | .error e => (.error e, c)
  | .ok request => (reply.result request.url, c.connect)

end Client

/-! ## Exchanges -/

/-- A run of requests in which each may depend on the replies before it. -/
inductive Exchange (α : Type) where
  /-- It ends with a result. -/
  | done (result : α)
  /-- It sends a request and goes on with the reply. -/
  | ask (request : Request) (next : Reply → Exchange α)

namespace Exchange

/-- The result of an exchange and its requests, when replies come in order; after the last one come
empty answers. -/
def run {α : Type} : Exchange α → List Reply → α × List Request
  | done result, _ => (result, [])
  | ask request next, replies =>
    let (result, requests) := run (next (replies.headD (.answer 200 (.value .null)))) replies.tail
    (result, request :: requests)

end Exchange

/-- Uploads a document and saves the configuration of its workflow; the result is the answer to the
upload. -/
def deployCase (config : DeploymentConfig) (target : DeploymentTarget) (caseName : Text)
    (document : Text) (logic : Logic) (stamp : Stamp) : Exchange (Except DeploymentError Json) :=
  match config.deployRequest target document with
  | .error e => .done (.error e)
  | .ok upload =>
    .ask upload fun reply =>
      match reply.result upload.url with
      | .error e => .done (.error e)
      | .ok answer =>
        match config.saveRequest target caseName answer logic stamp with
        | .error e => .done (.error e)
        | .ok save =>
          .ask save fun reply => .done ((reply.result save.url).map fun _ => answer)

end CasePlan
