import CasePlan.Deployment.Client
import CasePlan.Proofs.Result

/-!
# How deployments go

A deployment uploads a document and, if the answer names the case, saves the configuration of the
workflow under that name.  Whatever the backend replies, that is all it sends.

* `Reply.Brings`, `Reply.Causes`: the value or the error that comes of a reply;
  `result_eq_ok_iff`, `result_eq_error_iff`.
* `Reply.IsUnreadable`: replies whose bodies are not what is read, which is what the client passes on
  (`Causes.isReported_eq_false_iff`); `brings_received_iff` and `isUnreadable_received_iff` say the
  same of a body by its content.
* `Json.NamesCase`: answers that name a case; `exists_configuration`, `exists_gap`: configurations are
  made from them, and from no others.
* `Course`: how a deployment goes; `course_deployCase`: every deployment goes that way.
* `Course.isReported_eq_false_iff`: when it ends with an error that the client passes on.
-/

namespace CasePlan

/-! ## Replies -/

namespace BodyFault

/-- Whether a body arrives but is nothing that can be read. -/
def isMalformed : BodyFault → Bool
  | timeout | failure _ => false
  | notText _ | notJson _ => true

/-- The client words every other fault itself. -/
theorem isReported_ofFault (url : Text) (f : BodyFault) :
    (DeploymentError.ofFault url f).isReported = !f.isMalformed := by
  cases f <;> rfl

end BodyFault

namespace Reply

variable {r : Reply} {url : Text} {v : Json} {e : DeploymentError} {f : BodyFault}

/-- A reply brings a value: the backend does not refuse, and its answer is read as the value. -/
inductive Brings : Reply → Json → Prop
  /-- The answer is read. -/
  | answer {status : Int} {body : Body} {v : Json} (h : status < 300) (hread : body.asJson = .ok v) :
    Brings (.answer status body) v

/-- A fault keeps a reply from being read. -/
inductive Fails : Reply → BodyFault → Prop
  /-- There is no answer. -/
  | timeout : Fails .timeout .timeout
  /-- There is no connection. -/
  | failure {reason : Text} : Fails (.failure reason) (.failure reason)
  /-- The backend does not refuse, but its answer cannot be read as JSON. -/
  | answer {status : Int} {body : Body} {f : BodyFault} (h : status < 300)
    (hread : body.asJson = .error f) : Fails (.answer status body) f
  /-- The backend refuses, and what it says cannot be read as a text. -/
  | refusal {status : Int} {body : Body} {f : BodyFault} (h : 300 ≤ status)
    (hread : body.asText = .error f) : Fails (.answer status body) f

/-- The error that a reply to a request ends a deployment with. -/
inductive Causes (url : Text) : Reply → DeploymentError → Prop
  /-- The backend refuses. -/
  | refused {status : Int} {body : Body} {t : Text} (h : 300 ≤ status) (hread : body.asText = .ok t) :
    Causes url (.answer status body) (.refused status)
  /-- The reply cannot be read. -/
  | fault {r : Reply} {f : BodyFault} (h : r.Fails f) : Causes url r (.ofFault url f)

/-- A body arrives, but it is not what is read: no JSON, or no text. -/
def IsUnreadable (r : Reply) : Prop := ∃ f, r.Fails f ∧ f.isMalformed = true

theorem brings_answer_iff {status : Int} {body : Body} :
    (Reply.answer status body).Brings v ↔ status < 300 ∧ body.asJson = .ok v :=
  ⟨fun ⟨h, hread⟩ => ⟨h, hread⟩, fun h => .answer h.1 h.2⟩

theorem fails_answer_iff {status : Int} {body : Body} :
    (Reply.answer status body).Fails f ↔
      if 300 ≤ status then body.asText = .error f else body.asJson = .error f := by
  split
  · next h =>
    refine ⟨fun hf => ?_, .refusal h⟩
    cases hf with
    | answer h' _ => omega
    | refusal _ hread => exact hread
  · next h =>
    refine ⟨fun hf => ?_, .answer (by omega)⟩
    cases hf with
    | answer _ hread => exact hread
    | refusal h' _ => exact absurd h' h

theorem result_eq_ok_iff : r.result url = .ok v ↔ r.Brings v := by
  constructor
  · intro h
    unfold result at h
    split at h
    · cases h
    · cases h
    · split at h
      · split at h <;> cases h
      · exact .answer (by omega) (mapError_eq_ok_iff.1 h)
  · rintro ⟨h, hread⟩
    rw [result, if_neg (by omega), hread]
    rfl

theorem result_eq_error_iff : r.result url = .error e ↔ r.Causes url e := by
  constructor
  · intro h
    unfold result at h
    split at h
    · obtain rfl := Except.error.inj h
      exact .fault .timeout
    · obtain rfl := Except.error.inj h
      exact .fault .failure
    · split at h
      · next hstatus =>
        split at h
        · next hread =>
          obtain rfl := Except.error.inj h
          exact .fault (.refusal hstatus hread)
        · next hread =>
          obtain rfl := Except.error.inj h
          exact .refused hstatus hread
      · obtain ⟨f, hread, rfl⟩ := mapError_eq_error_iff.1 h
        exact .fault (.answer (by omega) hread)
  · intro h
    cases h with
    | refused h hread => rw [result, if_pos h, hread]
    | fault h =>
      cases h with
      | timeout => rfl
      | failure => rfl
      | answer h hread =>
        rw [result, if_neg (by omega), hread]
        rfl
      | refusal h hread => rw [result, if_pos h, hread]

/-- A reply brings one value at most. -/
theorem Brings.eq {w : Json} (hv : r.Brings v) (hw : r.Brings w) : v = w := by
  have hresult : r.result [] = .ok v := result_eq_ok_iff.2 hv
  exact Except.ok.inj (hresult.symm.trans (result_eq_ok_iff.2 hw))

/-- One fault at most keeps a reply from being read. -/
theorem Fails.eq {g : BodyFault} (hf : r.Fails f) (hg : r.Fails g) : f = g := by
  cases r with
  | timeout => cases hf; cases hg; rfl
  | failure reason => cases hf; cases hg; rfl
  | answer status body =>
    rw [fails_answer_iff] at hf hg
    split at hf
    · next h =>
      rw [if_pos h] at hg
      exact Except.error.inj (hf.symm.trans hg)
    · next h =>
      rw [if_neg h] at hg
      exact Except.error.inj (hf.symm.trans hg)

theorem Causes.not_brings (h : r.Causes url e) : ¬r.Brings v := fun hv =>
  absurd ((result_eq_error_iff.2 h).symm.trans (result_eq_ok_iff.2 hv)) nofun

theorem IsUnreadable.not_brings (h : r.IsUnreadable) : ¬r.Brings v := by
  obtain ⟨f, hf, -⟩ := h
  have hcauses : r.Causes [] (.ofFault [] f) := .fault hf
  exact hcauses.not_brings

/-- The client passes on what it is caused by an unreadable body, and nothing else. -/
theorem Causes.isReported_eq_false_iff (h : r.Causes url e) :
    e.isReported = false ↔ r.IsUnreadable := by
  cases h with
  | refused h hread =>
    refine ⟨nofun, ?_⟩
    rintro ⟨f, hf, -⟩
    rw [fails_answer_iff, if_pos h] at hf
    exact absurd (hread.symm.trans hf) nofun
  | fault h =>
    rw [BodyFault.isReported_ofFault, Bool.not_eq_false']
    refine ⟨fun hmalformed => ⟨_, h, hmalformed⟩, ?_⟩
    rintro ⟨g, hg, hmalformed⟩
    rwa [h.eq hg]

/-! ### Bodies that arrive -/

variable {β : Type} {isBlank : β → Bool} {decode : List β → Except Text Text} {content : List β}
  {status : Int}

/-- A body that arrives brings `null` if it is blank, and otherwise what its text is read as. -/
theorem brings_received_iff :
    (Reply.answer status (.received isBlank decode content)).Brings v ↔ status < 300 ∧
      (Body.strip isBlank content = [] ∧ v = .null ∨
        Body.strip isBlank content ≠ [] ∧
          ∃ t, decode (Body.strip isBlank content) = .ok t ∧ Json.read t = .ok v) := by
  rw [brings_answer_iff, Body.received]
  refine and_congr_right fun _ => ?_
  cases Body.strip isBlank content with
  | nil => simp [eq_comm]
  | cons b rest => cases hdecode : decode (b :: rest) <;> simp [hdecode]

/-- A body that arrives is unreadable if it says why the backend refuses and is no text, or if it is
the answer, is not blank, and is no text or no JSON. -/
theorem isUnreadable_received_iff :
    (Reply.answer status (.received isBlank decode content)).IsUnreadable ↔
      (300 ≤ status ∧ ∃ reason, decode content = .error reason) ∨
        status < 300 ∧ Body.strip isBlank content ≠ [] ∧
          ∀ t, decode (Body.strip isBlank content) = .ok t → ∀ v, Json.read t ≠ .ok v := by
  simp only [IsUnreadable, fails_answer_iff, Body.received]
  by_cases h : 300 ≤ status
  case pos =>
    rw [or_iff_left (fun h' => by omega), and_iff_right h]
    simp only [if_pos h]
    cases decode content <;> simp [Except.mapError, BodyFault.isMalformed]
  case neg =>
    rw [or_iff_right (fun h' => h h'.1), and_iff_right (by omega)]
    simp only [if_neg h]
    cases Body.strip isBlank content with
    | nil => simp
    | cons b rest =>
      cases hdecode : decode (b :: rest) with
      | error reason => simp [hdecode, BodyFault.isMalformed]
      | ok t =>
        cases hread : Json.read t <;>
          simp [hdecode, hread, Except.mapError, BodyFault.isMalformed]

end Reply

/-! ## Answers that name a case -/

namespace Json

variable {value inner : Json} {name : Text}

/-- What a value holds at the end of some names. -/
def along (value : Json) : List Text → Option Json
  | [] => some value
  | name :: rest => (value.get? name).bind fun inner => inner.along rest

/-- The answer to an upload names a case: in the definition of the application there are models, and
the first of them has an identifier. -/
def NamesCase (answer id : Json) : Prop :=
  ∃ model rest, answer.along ["data", "appDefinition", "definition", "cmmnModels"] =
    some (.arr (model :: rest)) ∧ model.get? "id" = some id

theorem member_eq_ok_iff : value.member name = .ok inner ↔ value.get? name = some inner := by
  cases value with
  | obj members =>
    rw [member, get?]
    cases Table.get? name members with
    | none => exact ⟨nofun, nofun⟩
    | some found => exact ⟨fun h => congrArg some (Except.ok.inj h), fun h => congrArg _ (Option.some.inj h)⟩
  | _ => exact ⟨nofun, nofun⟩

/-- The first item of a text is a text, which has no members. -/
theorem first_member_eq_ok_iff :
    (value.first >>= member name) = .ok inner ↔
      ∃ model rest, value = .arr (model :: rest) ∧ model.get? name = some inner := by
  rw [bind_eq_ok_iff]
  constructor
  · rintro ⟨model, hfirst, hmember⟩
    unfold first at hfirst
    split at hfirst
    · obtain rfl := Except.ok.inj hfirst
      exact ⟨_, _, rfl, member_eq_ok_iff.1 hmember⟩
    · cases hfirst
    · obtain rfl := Except.ok.inj hfirst
      cases hmember
    · cases hfirst
    · cases hfirst
    · cases hfirst
  · rintro ⟨model, rest, rfl, hget⟩
    exact ⟨model, rfl, member_eq_ok_iff.2 hget⟩

/-- An answer names a case, looked up step by step. -/
theorem namesCase_iff {answer id : Json} :
    answer.NamesCase id ↔ ∃ data application inner models, answer.get? "data" = some data ∧
      data.get? "appDefinition" = some application ∧ application.get? "definition" = some inner ∧
      inner.get? "cmmnModels" = some models ∧ (models.first >>= member "id") = .ok id := by
  simp only [NamesCase, along, Option.bind_eq_some_iff, first_member_eq_ok_iff]
  constructor
  · rintro ⟨model, rest, ⟨data, hdata, application, happlication, inner, hinner, models, hmodels,
      hsome⟩, hid⟩
    obtain rfl := Option.some.inj hsome
    exact ⟨data, application, inner, _, hdata, happlication, hinner, hmodels, model, rest, rfl, hid⟩
  · rintro ⟨data, application, inner, _, hdata, happlication, hinner, hmodels, model, rest, rfl, hid⟩
    exact ⟨model, rest, ⟨data, hdata, application, happlication, inner, hinner, _, hmodels, rfl⟩, hid⟩

end Json

namespace Workflow

open Json (NamesCase)

variable {target : DeploymentTarget} {caseName : Text} {answer id : Json} {logic : Logic}
  {stamp : Stamp}

/-- The identifier of the case is found in an answer exactly if the answer names the case. -/
theorem definition_eq_ok_iff :
    (∃ application, definition answer = .ok (application, id)) ↔ answer.NamesCase id := by
  rw [Json.namesCase_iff]
  simp only [definition, bind_eq_ok_iff, Json.member_eq_ok_iff, pure_eq_ok_iff, Prod.mk.injEq]
  constructor
  · rintro ⟨application, data, hdata, _, happlication, inner, hinner, models, hmodels, model, hmodel,
      _, hid, rfl, rfl⟩
    exact ⟨data, _, inner, models, hdata, happlication, hinner, hmodels, model, hmodel, hid⟩
  · rintro ⟨data, application, inner, models, hdata, happlication, hinner, hmodels, model, hmodel,
      hid⟩
    exact ⟨application, data, hdata, application, happlication, inner, hinner, models, hmodels, model,
      hmodel, id, hid, rfl, rfl⟩

/-- A task as configurations show it. -/
structure ShowsTask (t : Task) (value : Json) : Prop where
  /-- Its slug. -/
  slug : value.get? "slug" = some (.str t.slug)
  /-- Its name. -/
  displayName : value.get? "display_name" = some (.str t.displayName)
  /-- Its outcomes, in order. -/
  outcomes : value.get? "outcomes" = some (.arr (t.outcomes.map .str))
  /-- Who does it. -/
  assignee : value.get? "assignee" = some (Json.ofText? t.assignee)
  /-- Who may do it. -/
  candidateGroups : value.get? "candidateGroups" = some (Json.ofText? t.candidateGroups)
  /-- When it is due. -/
  dueDate : value.get? "dueDate" = some (Json.ofText? t.dueDate)
  /-- Its form. -/
  formKey : value.get? "formKey" = some (Json.ofText? t.formKey)
  /-- How often it may be repeated. -/
  repetitionLimit : value.get? "repetitionLimit" =
    some (match t.repetitionLimit with
      | some n => .int n
      | none => .null)

/-- A stage as configurations show it. -/
structure ShowsStage (s : Stage) (value : Json) : Prop where
  /-- Its slug. -/
  slug : value.get? "slug" = some (.str s.slug)
  /-- Its name. -/
  displayName : value.get? "display_name" = some (.str s.displayName)
  /-- Its tasks, in order. -/
  members : value.get? "tasks" = some (.arr (s.members.map .str))

/-- A configuration carries the identifier of a case, and all tasks and stages in order. -/
structure Carries (value : Json) (caseSlug : Text) (id : Json) (logic : Logic) : Prop where
  /-- The identifier. -/
  caseId : value.along ["flow_config", caseSlug, "cmmnId"] = some id
  /-- The tasks. -/
  tasks : ∃ values, value.along ["flow_config", caseSlug, "tasks"] = some (.arr values) ∧
    List.Forall₂ ShowsTask logic.tasks values
  /-- The stages. -/
  stages : ∃ values, value.along ["flow_config", caseSlug, "stages"] = some (.arr values) ∧
    List.Forall₂ ShowsStage logic.stages values

theorem showsTask_task (t : Task) : ShowsTask t (task t) :=
  ⟨rfl, rfl, rfl, rfl, rfl, rfl, rfl, rfl⟩

theorem showsStage_stage (s : Stage) : ShowsStage s (stage s) := ⟨rfl, rfl, rfl⟩

theorem along_flow (slug : Text) (flow : Json) (more : List (Text × Json)) (names : List Text) :
    (Json.obj (("flow_config", .obj [(slug, flow)]) :: more)).along ("flow_config" :: slug :: names) =
      flow.along names := by
  have hflow : (Json.obj [(slug, flow)]).get? slug = some flow := if_pos rfl
  rw [Json.along, Json.get?, Table.get?, if_pos rfl, Option.bind_some, Json.along, hflow,
    Option.bind_some]

/-- A configuration is made from an answer that names the case, and carries the name. -/
theorem exists_configuration (target : DeploymentTarget) (caseName : Text) (logic : Logic)
    (stamp : Stamp) (h : answer.NamesCase id) :
    ∃ value, configuration target caseName answer logic stamp = .ok value ∧
      Carries value target.caseSlug id logic := by
  obtain ⟨application, hdefinition⟩ := definition_eq_ok_iff.2 h
  refine ⟨_, bind_eq_ok_iff.2 ⟨_, hdefinition, rfl⟩, along_flow .., ?_, ?_⟩
  · refine ⟨logic.tasks.map task, along_flow .., ?_⟩
    exact forall₂_map_of_forall_mem fun t _ => showsTask_task t
  · refine ⟨logic.stages.map stage, along_flow .., ?_⟩
    exact forall₂_map_of_forall_mem fun s _ => showsStage_stage s

/-- No configuration is made from another answer. -/
theorem exists_gap (target : DeploymentTarget) (caseName : Text) (logic : Logic) (stamp : Stamp)
    (h : ∀ id, ¬answer.NamesCase id) :
    ∃ gap, configuration target caseName answer logic stamp = .error gap := by
  cases hdefinition : definition answer with
  | error gap => exact ⟨gap, bind_eq_error_iff.2 (.inl hdefinition)⟩
  | ok found => exact absurd (definition_eq_ok_iff.1 ⟨found.1, hdefinition⟩) (h found.2)

end Workflow

/-! ## Requests -/

namespace Request

/-- A request uploads a document for an application. -/
structure Uploads (r : Request) (config : DeploymentConfig) (target : DeploymentTarget)
    (document : Text) : Prop where
  /-- Its address. -/
  url : r.url = config.baseUrl ++ "/api/v1/work/tenant/sdk/application/app/cmmn/deploy"
  /-- It is a form with the document as a file, and with the name and the identifier of the
  application. -/
  payload : ∃ file named identified, r.payload = .form [file, named, identified] ∧
    file.fileName = some (DeploymentConfig.documentFileName target.caseSlug) ∧
    file.content = document ∧ named.content = target.appName ∧ identified.content = target.appId

/-- A request saves the configuration of a case with an identifier. -/
structure Saves (r : Request) (config : DeploymentConfig) (target : DeploymentTarget) (id : Json)
    (logic : Logic) : Prop where
  /-- Its address. -/
  url : r.url = config.baseUrl ++ "/api/v2/work/flows/" ++ target.appId
  /-- It holds one configuration. -/
  payload : ∃ value, r.payload = .json (.arr [value]) ∧
    Workflow.Carries value target.caseSlug id logic

end Request

namespace DeploymentConfig

variable (config : DeploymentConfig) (target : DeploymentTarget)

theorem exists_deployRequest {document : Text} (h : ∃ bytes, Utf8.encode? document = .ok bytes) :
    ∃ upload, config.deployRequest target document = .ok upload ∧
      upload.Uploads config target document := by
  obtain ⟨bytes, hbytes⟩ := h
  refine ⟨_, by rw [deployRequest, hbytes], rfl, ?_⟩
  exact ⟨_, _, _, rfl, rfl, rfl, rfl, rfl⟩

theorem exists_saveRequest (caseName : Text) {answer id : Json} (logic : Logic) (stamp : Stamp)
    (h : answer.NamesCase id) :
    ∃ save, config.saveRequest target caseName answer logic stamp = .ok save ∧
      save.Saves config target id logic := by
  obtain ⟨value, hvalue, hcarries⟩ := Workflow.exists_configuration target caseName logic stamp h
  exact ⟨_, by rw [saveRequest, hvalue], rfl, value, rfl, hcarries⟩

theorem exists_saveRequest_eq_error (caseName : Text) {answer : Json} (logic : Logic) (stamp : Stamp)
    (h : ∀ id, ¬answer.NamesCase id) :
    ∃ gap, config.saveRequest target caseName answer logic stamp = .error (.incomplete gap) := by
  obtain ⟨gap, hgap⟩ := Workflow.exists_gap target caseName logic stamp h
  exact ⟨gap, by rw [saveRequest, hgap]⟩

end DeploymentConfig

/-! ## Whole deployments -/

/-- The reply to a request, by its place; after the last reply come empty answers. -/
def replyAt (replies : List Reply) (place : Nat) : Reply :=
  replies.getD place (.answer 200 (.value .null))

/-- How a deployment goes with the replies to its requests: what is sent, and what comes of it. -/
inductive Course (config : DeploymentConfig) (target : DeploymentTarget) (document : Text)
    (logic : Logic) (first second : Reply) :
    List Request → Except DeploymentError Json → Prop
  /-- The upload fails. -/
  | refused {upload : Request} {e : DeploymentError}
    (hupload : upload.Uploads config target document) (he : first.Causes upload.url e) :
    Course config target document logic first second [upload] (.error e)
  /-- The answer to the upload does not name the case, so nothing is saved. -/
  | nameless {upload : Request} {answer : Json} {gap : Gap}
    (hupload : upload.Uploads config target document) (hanswer : first.Brings answer)
    (hid : ∀ id, ¬answer.NamesCase id) :
    Course config target document logic first second [upload] (.error (.incomplete gap))
  /-- The configuration is not saved. -/
  | unsaved {upload save : Request} {answer id : Json} {e : DeploymentError}
    (hupload : upload.Uploads config target document) (hanswer : first.Brings answer)
    (hid : answer.NamesCase id) (hsave : save.Saves config target id logic)
    (he : second.Causes save.url e) :
    Course config target document logic first second [upload, save] (.error e)
  /-- It is saved. -/
  | saved {upload save : Request} {answer id v : Json}
    (hupload : upload.Uploads config target document) (hanswer : first.Brings answer)
    (hid : answer.NamesCase id) (hsave : save.Saves config target id logic)
    (hv : second.Brings v) :
    Course config target document logic first second [upload, save] (.ok answer)

variable {config : DeploymentConfig} {target : DeploymentTarget} {document : Text} {logic : Logic}

/-- Every deployment goes that way. -/
theorem course_deployCase (config : DeploymentConfig) (target : DeploymentTarget) (caseName : Text)
    (logic : Logic) (stamp : Stamp) (replies : List Reply)
    (h : ∃ bytes, Utf8.encode? document = .ok bytes) :
    let ended := (deployCase config target caseName document logic stamp).run replies
    Course config target document logic (replyAt replies 0) (replyAt replies 1) ended.2 ended.1 := by
  obtain ⟨upload, hupload, huploads⟩ := config.exists_deployRequest target h
  have hfirst : replies.headD (.answer 200 (.value .null)) = replyAt replies 0 := by
    cases replies <;> rfl
  have hsecond : replies.tail.headD (.answer 200 (.value .null)) = replyAt replies 1 := by
    rcases replies with _ | ⟨_, _ | _⟩ <;> rfl
  rw [deployCase, hupload]
  simp only [Exchange.run, hfirst]
  cases hresult : (replyAt replies 0).result upload.url with
  | error e => exact .refused huploads (Reply.result_eq_error_iff.1 hresult)
  | ok answer =>
    have hanswer := Reply.result_eq_ok_iff.1 hresult
    by_cases hnamed : ∃ id, answer.NamesCase id
    · obtain ⟨id, hid⟩ := hnamed
      obtain ⟨save, hsave, hsaves⟩ := config.exists_saveRequest target caseName logic stamp hid
      simp only [hsave, Exchange.run, hsecond]
      cases hlast : (replyAt replies 1).result save.url with
      | error e => exact .unsaved huploads hanswer hid hsaves (Reply.result_eq_error_iff.1 hlast)
      | ok v => exact .saved huploads hanswer hid hsaves (Reply.result_eq_ok_iff.1 hlast)
    · have hid := not_exists.1 hnamed
      obtain ⟨gap, hgap⟩ := config.exists_saveRequest_eq_error target caseName logic stamp hid
      simp only [hgap, Exchange.run]
      exact .nameless huploads hanswer hid

namespace Course

variable {first second : Reply} {requests : List Request} {result : Except DeploymentError Json}

/-- A deployment ends with an error that the client passes on exactly if the last request that is sent
gets an answer that is no text, or no JSON. -/
theorem isReported_eq_false_iff (h : Course config target document logic first second requests result) :
    (∃ e, result = .error e ∧ e.isReported = false) ↔ first.IsUnreadable ∨
      (∃ answer id, first.Brings answer ∧ answer.NamesCase id) ∧ second.IsUnreadable := by
  have herror : ∀ e : DeploymentError, (∃ e', (.error e : Except DeploymentError Json) = .error e' ∧
      e'.isReported = false) ↔ e.isReported = false := by
    refine fun e => ⟨?_, fun he => ⟨e, rfl, he⟩⟩
    rintro ⟨e', he, hreported⟩
    rwa [Except.error.inj he]
  cases h with
  | refused hupload he =>
    rw [herror, he.isReported_eq_false_iff, or_iff_left]
    rintro ⟨⟨answer, id, hanswer, -⟩, -⟩
    exact he.not_brings hanswer
  | nameless hupload hanswer hid =>
    rw [herror]
    refine ⟨nofun, ?_⟩
    rintro (hfirst | ⟨⟨other, id, hother, hnamed⟩, -⟩)
    · exact absurd hanswer hfirst.not_brings
    · obtain rfl := hanswer.eq hother
      exact absurd hnamed (hid id)
  | unsaved hupload hanswer hid hsave he =>
    rw [herror, he.isReported_eq_false_iff]
    refine ⟨fun hsecond => .inr ⟨⟨_, _, hanswer, hid⟩, hsecond⟩, ?_⟩
    rintro (hfirst | ⟨-, hsecond⟩)
    · exact absurd hanswer hfirst.not_brings
    · exact hsecond
  | saved hupload hanswer hid hsave hv =>
    refine ⟨nofun, ?_⟩
    rintro (hfirst | ⟨-, hsecond⟩)
    · exact absurd hanswer hfirst.not_brings
    · exact absurd hv hsecond.not_brings

end Course

/-- The answer to an upload, with the identifier of the case and nothing else. -/
def namingAnswer (id : Text) : Json :=
  .obj [("data", .obj [("appDefinition", .obj [("definition",
    .obj [("cmmnModels", .arr [.obj [("id", .str id)]])])])])]

/-- Both requests are accepted here, the second with an answer that is no JSON. -/
example (logic : Logic) (stamp : Stamp) :
    ((deployCase {} ⟨"app", "App", "case"⟩ "case" "" logic stamp).run
      [.answer 200 (.value (namingAnswer "m")), .answer 200 (.text "boom")]).map id List.length =
        (.error (.notJson ⟨.value, 0, 1, 1⟩), 2) := by
  rfl

/-- A blank answer is `null`, which names no case. -/
example (logic : Logic) (stamp : Stamp) :
    ((deployCase {} ⟨"app", "App", "case"⟩ "case" "" logic stamp).run
      [.answer 200 (.text " ")]).map id List.length = (.error (.incomplete (.noParts "NoneType")), 1) := by
  rfl

end CasePlan
