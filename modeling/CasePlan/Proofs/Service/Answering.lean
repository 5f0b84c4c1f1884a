import CasePlan.Service.Answer
import CasePlan.Proofs.Document.Texts
import CasePlan.Proofs.Inspection.View
import CasePlan.Proofs.Logic.RoundTrip

/-!
# How the service answers

* `isSendable_of_respond`, `status_respond_mem`: every answer can be sent, with one of six statuses.
* `Posts`: requests whose body has the shape that an endpoint asks for; `respond_compile` and
  `respond_extract`: a description that is compiled is answered with its document, and a document that
  a description is taken out of with the description, and with nothing less.
* `respond_eq_of_not_asksLibrary`, `serveAll_eq`: a running service answers all requests from the library
  that it loaded for the first of them that needs one.
-/

namespace CasePlan.Service

open Json (AreExact MembersAreExact isExact_obj isExact_str)

/-! ## What can be sent -/

mutual

/-- A value that has a text of its own can be sent. -/
theorem isSendable_of_isExact : (v : Json) → v.IsExact → isSendable v = true
  | .null, _ | .bool _, _ | .int _, _ => rfl
  | .float _, h => absurd h not_false
  | .str t, h => by
    rw [isSendable, Bool.not_eq_true', List.any_eq_false]
    exact fun c hc => Bool.eq_false_iff.1 (h c hc)
  | .arr items, h => areSendable_of_areExact items h
  | .obj members, h => areMembersSendable_of_membersAreExact members h.2

theorem areSendable_of_areExact : (items : List Json) → AreExact items → areSendable items = true
  | [], _ => rfl
  | x :: rest, h => by
    rw [areSendable, isSendable_of_isExact x h.1, areSendable_of_areExact rest h.2, Bool.and_self]

theorem areMembersSendable_of_membersAreExact :
    (members : List (Text × Json)) → MembersAreExact members → areMembersSendable members = true
  | [], _ => rfl
  | (name, x) :: rest, h => by
    have hname : name.any Utf8.isSurrogate = false :=
      List.any_eq_false.2 fun c hc => Bool.eq_false_iff.1 (h.1 c hc)
    rw [areMembersSendable, hname, isSendable_of_isExact x h.2.1,
      areMembersSendable_of_membersAreExact rest h.2.2]
    rfl

end

/-- What is settled can be sent. -/
theorem isSendable_of_settle {r : Response} {value : Json} (h : r.settle.body = .json value) :
    isSendable value = true := by
  unfold Response.settle at h
  split at h
  · next v hbody =>
    split at h
    · next hv =>
      obtain rfl := Body.json.inj (hbody.symm.trans h)
      exact hv
    · cases h
  · next t hbody => exact absurd (hbody.symm.trans h) nofun

theorem settle_json_of_isExact {status : Nat} {value : Json} (h : value.IsExact) :
    (Response.json status value).settle = .json status value :=
  if_pos (isSendable_of_isExact value h)

variable {library : Library} {request : Request}

/-- Every answer can be sent. -/
theorem isSendable_of_respond {value : Json} (h : (respond library request).body = .json value) :
    isSendable value = true := by
  rw [respond] at h
  split at h
  · cases h
  · exact isSendable_of_settle h

/-! ## Statuses -/

/-- The statuses that the service answers with. -/
def statuses : List Nat := [200, 400, 404, 405, 422, 500]

/-- An answer keeps its status, unless it cannot be sent. -/
theorem status_settle_mem (r : Response) : r.settle.status ∈ [r.status, 500] := by
  unfold Response.settle
  split
  · split
    · exact List.mem_cons_self
    · exact List.mem_cons_of_mem _ List.mem_cons_self
  · exact List.mem_cons_self

theorem status_json {status : Nat} (h : status ∈ statuses) (value : Json) :
    (Response.json status value).status ∈ statuses := h

theorem status_withBody {α : Type} {body : Text} {shape : Json → Schema.Checked α}
    {answer : α → Response} (h : ∀ a, (answer a).status ∈ statuses) :
    (withBody body shape answer).status ∈ statuses := by
  have hissues : ∀ issues, (issuesResponse issues).status ∈ statuses := fun _ =>
    status_json (by decide) _
  unfold withBody
  split
  · exact hissues _
  · split
    · exact hissues _
    · split
      · exact h _
      · split
        · exact hissues _
        · decide

theorem status_compileResponse (q : CompileQuery) : (compileResponse q).status ∈ statuses := by
  unfold compileResponse
  split
  · exact status_json (by decide) _
  · decide
  · exact status_json (by decide) _

theorem status_inspectResponse (document : Text) : (inspectResponse document).status ∈ statuses := by
  unfold inspectResponse
  split
  · exact status_json (by decide) _
  · decide

theorem status_extractResponse (document : Text) : (extractResponse document).status ∈ statuses := by
  unfold extractResponse
  split
  · exact status_json (by decide) _
  · exact status_json (by decide) _
  · decide

theorem status_templateResponse (library : Library) (id : Text) :
    (templateResponse library id).status ∈ statuses := by
  unfold templateResponse
  split
  · exact status_json (by decide) _
  · exact status_json (by decide) _

theorem status_answer (body : Text) (endpoint : Endpoint) :
    (endpoint.answer library body).status ∈ statuses := by
  cases endpoint with
  | root => exact status_json (by decide) _
  | compile => exact status_withBody status_compileResponse
  | inspect => exact status_withBody status_inspectResponse
  | extract => exact status_withBody status_extractResponse
  | templates => exact status_json (by decide) _
  | template id => exact status_templateResponse library id

/-- Every answer has one of six statuses. -/
theorem status_respond_mem (library : Library) (request : Request) :
    (respond library request).status ∈ statuses := by
  have hanswer : (answerTo library request).status ∈ statuses := by
    unfold answerTo
    split
    · exact status_json (by decide) _
    · split
      · exact status_answer _ _
      · exact status_json (by decide) _
  have hstatus : (respond library request).status = (answerTo library request).settle.status := by
    rw [respond]
    split <;> rfl
  have hsettled := status_settle_mem (answerTo library request)
  rw [hstatus]
  simp only [List.mem_cons, List.not_mem_nil, or_false] at hsettled
  rcases hsettled with h | h
  · exact h ▸ hanswer
  · rw [h]
    decide

/-! ## Descriptions and documents -/

/-- A request brings to an endpoint what it asks for. -/
structure Posts {α : Type} (request : Request) (endpoint : Endpoint)
    (shape : Json → Schema.Checked α) (a : α) : Prop where
  /-- It leads to the endpoint. -/
  path : Endpoint.ofPath? (decodePath request.path) = some endpoint
  /-- By its method. -/
  method : request.method = endpoint.method
  /-- Its body is a value of the shape; a byte order mark does not count. -/
  body : ∃ c rest value, request.body = c :: rest ∧
    Json.read (if c.val = 0xFEFF then rest else c :: rest) = .ok value ∧ shape value = .good a

namespace Posts

variable {α : Type} {endpoint : Endpoint} {shape : Json → Schema.Checked α} {a : α}

theorem withBody_eq (h : Posts request endpoint shape a) (answer : α → Response) :
    withBody request.body shape answer = answer a := by
  obtain ⟨c, rest, value, hbody, hread, hshape⟩ := h.body
  rw [hbody, withBody]
  simp only [hread, hshape]

/-- What is posted as an endpoint asks for it is answered by the endpoint. -/
theorem respond_eq (h : Posts request endpoint shape a) (hmethod : endpoint.method = "POST")
    {answer : α → Response} (library : Library)
    (hanswer : endpoint.answer library request.body = withBody request.body shape answer) :
    respond library request = (answer a).settle := by
  have hhead : ("POST" : Text) ≠ "HEAD" := by decide
  have hanswered : answerTo library request = answer a := by
    rw [answerTo, h.path]
    exact (if_pos h.method).trans (hanswer.trans (h.withBody_eq answer))
  rw [respond, h.method, hmethod, if_neg hhead, hanswered]

end Posts

/-- What is compiled can be sent: none of its texts has a surrogate. -/
theorem isExact_compiledData {q : CompileQuery} {compiled : Compiled}
    (h : q.compiled = .ok compiled) : (compiledData q compiled).IsExact := by
  have hcompiled : compile q.config (Case.make (.str q.caseName) q.application.check)
      (Logic.parse (.obj q.logic)) = .ok compiled := h
  obtain ⟨case, logic, c, tree, hcase, -⟩ := compile_eq_ok_iff.1 hcompiled
  obtain ⟨hstr, happlication, hname⟩ := Case.make_eq_ok_iff.1 hcase
  obtain ⟨-, hcarried⟩ := Application.check_eq_ok_iff.1 happlication
  rw [← Json.str.inj hstr] at hname
  have hid : (q.caseName ++ "_" ++ q.application.identifier).isXmlText = true :=
    Text.isXmlText_append.2 ⟨Text.isXmlText_append.2 ⟨isXmlText_of_isCaseName hname, by decide⟩,
      hcarried.identifier⟩
  refine isExact_obj ["case_id", "xml", "task_count", "sentry_count"] (List.Sublist.refl _)
    (by decide) (by decide) ?_
  simp only [List.map_cons, List.map_nil, List.forall_mem_cons]
  exact ⟨isExact_str hid, Utf8.exists_encode?_iff.1 (exists_encode_document hcompiled), trivial,
    trivial, by simp⟩

/-- A description that is compiled is answered with its document; any other, whatever is wrong with
it, is not accepted. -/
theorem respond_compile {q : CompileQuery} (h : Posts request .compile CompileQuery.ofJson q)
    (library : Library) :
    (∃ compiled, q.compiled = .ok compiled ∧
        respond library request = .json 200 (compiledData q compiled)) ∨
      (∀ compiled, q.compiled ≠ .ok compiled) ∧ (respond library request).status ∈ [400, 500] := by
  have hrespond : respond library request = (compileResponse q).settle :=
    h.respond_eq rfl library rfl
  rw [hrespond, compileResponse]
  cases hcompiled : q.compiled with
  | ok compiled =>
    exact .inl ⟨compiled, rfl, settle_json_of_isExact (isExact_compiledData hcompiled)⟩
  | error e =>
    refine .inr ⟨nofun, ?_⟩
    split
    · next r _ => exact status_settle_mem (.detail 400 r.toJson)
    · decide
    · next hok => cases hok

/-- A document is answered with the description in it; any other is not accepted. -/
theorem respond_extract {document : Text} (h : Posts request .extract documentOf document)
    (library : Library) :
    (∃ logic, extract document = .ok logic ∧ respond library request = .json 200 logic.toJson) ∨
      (∀ logic, extract document ≠ .ok logic) ∧ (respond library request).status ∈ [422, 500] := by
  have hrespond : respond library request = (extractResponse document).settle :=
    h.respond_eq rfl library rfl
  rw [hrespond, extractResponse]
  cases hextract : extract document with
  | ok logic =>
    exact .inl ⟨logic, rfl,
      settle_json_of_isExact (Logic.isExact_toJson (consistent_of_extract hextract))⟩
  | error e =>
    refine .inr ⟨nofun, ?_⟩
    split
    · next hok => cases hok
    · next errors _ =>
      exact status_settle_mem (.detail 422 (.obj [("errors", .arr (errors.map .str))]))
    · decide

/-! ## A running service -/

/-- What does not need the library is answered the same from any. -/
theorem respond_eq_of_not_asksLibrary (h : request.asksLibrary = false)
    (library library' : Library) : respond library request = respond library' request := by
  have hanswer : answerTo library request = answerTo library' request := by
    rw [Request.asksLibrary] at h
    unfold answerTo
    split
    · rfl
    · next endpoint hpath =>
      rw [hpath] at h
      split
      · next hmethod =>
        simp only [hmethod, decide_true, Bool.true_and] at h
        cases endpoint with
        | templates => cases h
        | template id => cases h
        | _ => rfl
      · rfl
  rw [respond, respond, hanswer]

/-- A request that is answered from the library loads it, unless it is loaded. -/
theorem loaded_serve (shelf : Shelf) (load : Unit → Library) (request : Request) :
    (serve shelf load request).2.loaded =
      shelf.loaded.or (if request.asksLibrary then some (load ()) else none) := by
  obtain ⟨_ | library⟩ := shelf
  · rw [serve]
    split <;> rfl
  · rw [serve, Option.some_or]
    split <;> rfl

/-- Its answer is that from the library, be that loaded by it or before it. -/
theorem response_serve (shelf : Shelf) (load : Unit → Library) (request : Request) {library : Library}
    (h : request.asksLibrary = true → (serve shelf load request).2.loaded = some library) :
    (serve shelf load request).1 = respond library request := by
  cases hasks : request.asksLibrary
  · rw [serve, hasks]
    exact respond_eq_of_not_asksLibrary hasks _ _
  · have hloaded := h hasks
    rw [serve, hasks, if_pos rfl] at hloaded ⊢
    obtain ⟨_ | loaded⟩ := shelf
    · rw [← Option.some.inj hloaded]
      rfl
    · rw [← Option.some.inj hloaded]
      rfl

/-- A running service has the library that the first request loaded that was answered from it. -/
theorem loaded_serveAll (shelf : Shelf) (requests : List ((Unit → Library) × Request)) :
    (serveAll shelf requests).2.loaded = shelf.loaded.or
      ((requests.find? fun x => x.2.asksLibrary).map fun x => x.1 ()) := by
  induction requests generalizing shelf with
  | nil => exact Option.or_none.symm
  | cons x rest ih =>
    obtain ⟨load, request⟩ := x
    have hrest := ih (serve shelf load request).2
    rw [loaded_serve, Option.or_assoc] at hrest
    refine hrest.trans (congrArg shelf.loaded.or ?_)
    cases hasks : request.asksLibrary
    · rw [List.find?_cons, hasks]
      rfl
    · rw [List.find?_cons, hasks]
      rfl

/-- It answers every request from that library, whatever the directory holds by then. -/
theorem serveAll_eq (shelf : Shelf) (requests : List ((Unit → Library) × Request)) :
    (serveAll shelf requests).1 = requests.map fun x =>
      respond ((serveAll shelf requests).2.loaded.getD []) x.2 := by
  induction requests generalizing shelf with
  | nil => rfl
  | cons x rest ih =>
    obtain ⟨load, request⟩ := x
    have hafter := loaded_serveAll (serve shelf load request).2 rest
    refine congrArg₂ List.cons (response_serve shelf load request fun hasks => ?_) (ih _)
    obtain ⟨library, hlibrary⟩ : ∃ library, (serve shelf load request).2.loaded = some library := by
      rw [loaded_serve, hasks]
      cases shelf.loaded with
      | none => exact ⟨load (), rfl⟩
      | some library => exact ⟨library, rfl⟩
    rw [hlibrary, Option.some_or] at hafter
    rw [hlibrary]
    exact congrArg some (congrArg (·.getD []) hafter).symm

end CasePlan.Service
