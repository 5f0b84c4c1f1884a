import CasePlan.Inspection.Report
import CasePlan.Proofs.Result
import CasePlan.Proofs.Text.Utf8

/-!
# What an inspection goes through

An inspection goes from the plan items of a stage to the human tasks that they refer to, from a human
task to the rules of its listeners, and from a rule to its conditions.

* `stops`, `ruleStops`: what ends the inspection, and nothing else does.  `iterate_eq`,
  `ruleOutcomes_eq`, `taskOutcomes_eq`, `foundTask_eq`: going through conditions, rules and
  listeners either comes to such a rule or adds up what all rules ask for (`askedOutcomes`).
* `reachedTasks`: the human tasks that plan items lead to, each where it is found.
  `stageTasks_eq_mapM`: the tasks of a stage are found one after another.
* `inspectRoot_eq`: an inspection puts them into a report, unless one of their rules stops it.
-/

namespace CasePlan

open Document Xml

/-- What was entered last after all values are replaced. -/
theorem Table.last?_map {κ α β : Type} [DecidableEq κ] (key : κ) (f : α → β)
    (entries : List (κ × α)) :
    last? key (entries.map fun entry => (entry.1, f entry.2)) = (last? key entries).map f := by
  rw [last?, ← List.map_reverse]
  exact get?_map key f entries.reverse

namespace Inspection

/-! ## Conditions and rules -/

/-- Whether a value cannot be gone through: `true`, or a number other than zero. -/
def stops : Json → Bool
  | .bool b => b
  | .int n => n != 0
  | .float x => !(x == 0.0)
  | _ => false

/-- Whether a rule is an object whose conditions cannot be gone through. -/
def ruleStops : Json → Bool
  | .obj members => stops ((Json.obj members).getD "conditions")
  | _ => false

/-- What the conditions of a rule ask for, one after another. -/
def ruleValues : Json → List Json
  | .obj members =>
    match (Json.obj members).getD "conditions" with
    | .arr conditions => conditions.filterMap conditionOutcome?
    | _ => []
  | _ => []

/-- Why a rule ends the inspection. -/
def ruleError (rule : Json) : InspectionError := .notIterable (rule.getD "conditions").typeWord

theorem iterate_eq (v : Json) :
    iterate v = if stops v then .error (.notIterable v.typeWord) else .ok (v.items?.getD []) := by
  have hnumber : ∀ v : Json, stops v = v.isTruthy → v.items? = none →
      (if !v.isTruthy then .ok [] else .error (.notIterable v.typeWord)) =
        if stops v then (.error (.notIterable v.typeWord) : Except InspectionError (List Json))
        else .ok (v.items?.getD []) := by
    intro v hstops hitems
    rw [hstops, hitems]
    cases v.isTruthy <;> rfl
  cases v with
  | bool b => exact hnumber (.bool b) rfl rfl
  | int n => exact hnumber (.int n) rfl rfl
  | float x => exact hnumber (.float x) rfl rfl
  | arr items => cases items <;> rfl
  | str t => cases t <;> rfl
  | obj members => cases members <;> rfl
  | null => rfl

/-- Only `true` and numbers cannot be gone through. -/
theorem ruleError_of_ruleStops {rule : Json} (h : ruleStops rule = true) :
    ∃ word ∈ (["bool", "int", "float"] : List Text), ruleError rule = .notIterable word := by
  have hword : ∀ v : Json, stops v = true → v.typeWord ∈ (["bool", "int", "float"] : List Text) := by
    intro v hv
    cases v with
    | bool b => exact List.mem_cons_self
    | int n => exact List.mem_cons_of_mem _ List.mem_cons_self
    | float x => exact List.mem_cons_of_mem _ (List.mem_cons_of_mem _ List.mem_cons_self)
    | _ => exact absurd hv Bool.false_ne_true
  cases rule with
  | obj members => exact ⟨_, hword _ h, rfl⟩
  | _ => exact absurd h Bool.false_ne_true

/-- Rules are gone through up to the first that stops; if there is none, what they ask for is
added. -/
theorem ruleOutcomes_eq (outcomes rules : List Json) :
    ruleOutcomes outcomes rules =
      match rules.find? ruleStops with
      | some rule => .error (ruleError rule)
      | none => .ok ((rules.flatMap ruleValues).foldl addOutcome outcomes) := by
  induction rules generalizing outcomes with
  | nil => rfl
  | cons rule rules ih =>
    cases rule with
    | obj members =>
      rw [ruleOutcomes, iterate_eq]
      by_cases hstops : ruleStops (.obj members) = true
      · have hcond : stops ((Json.obj members).getD "conditions") = true := hstops
        rw [if_pos hcond, List.find?_cons_of_pos hstops]
        rfl
      · have hcond : ¬stops ((Json.obj members).getD "conditions") = true := hstops
        have hvalues : (((Json.obj members).getD "conditions").items?.getD []).filterMap
            conditionOutcome? = ruleValues (.obj members) := by
          rw [ruleValues]
          cases (Json.obj members).getD "conditions" <;> rfl
        rw [if_neg hcond, List.find?_cons_of_neg hstops, List.flatMap_cons, List.foldl_append,
          ← hvalues]
        exact ih _
    | _ => exact ih outcomes

/-- The rules of the listeners that set the status of a human task. -/
def taskRules (task : Content) : List Json :=
  (listeners task statusListener).flatMap fun l =>
    (Outcome.readRules? (listenerPayload l.1)).getD []

/-- The values that the rules of a human task ask for, without empty ones, each once. -/
def askedOutcomes (task : Content) : List Json :=
  ((taskRules task).flatMap ruleValues).foldl addOutcome []

/-- The listeners of a human task are gone through as one list of rules. -/
theorem taskOutcomes_eq (task : Content) :
    taskOutcomes task =
      match (taskRules task).find? ruleStops with
      | some rule => .error (ruleError rule)
      | none => .ok (askedOutcomes task) := by
  have hfold : ∀ (ls : List (Content × Option Text)) (outcomes : List Json),
      (ls.map (·.1)).foldlM (fun outcomes listener =>
        ruleOutcomes outcomes ((Outcome.readRules? (listenerPayload listener)).getD [])) outcomes =
      ruleOutcomes outcomes (ls.flatMap fun l =>
        (Outcome.readRules? (listenerPayload l.1)).getD []) := by
    intro ls
    induction ls with
    | nil => exact fun _ => rfl
    | cons l ls ih =>
      intro outcomes
      rw [List.map_cons, List.foldlM_cons, List.flatMap_cons, ruleOutcomes_eq, ruleOutcomes_eq,
        List.find?_append, List.flatMap_append, List.foldl_append]
      cases ((Outcome.readRules? (listenerPayload l.1)).getD []).find? ruleStops with
      | some rule => rfl
      | none =>
        rw [ok_bind, ih, ruleOutcomes_eq]
        rfl
  rw [taskOutcomes, hfold, ruleOutcomes_eq]
  rfl

/-! ## Human tasks -/

/-- A human task at its place whose rules ask for some outcomes; if for none, it is `completed`. -/
def taskWith (place : Place) (task : Content) (outcomes : List Json) : FoundTask :=
  let id := (plainAttribute? "id" task).getD []
  let slug := if place.scope.isEmpty then id else (Text.after? place.scope id).getD id
  { id
    slug := if slug.isEmpty then id else slug
    name := (filled (plainAttribute? "name" task)).getD slug
    assignee := engineAttribute? "assignee" task
    candidateGroups := engineAttribute? "candidateGroups" task
    dueDate := engineAttribute? "dueDate" task
    formKey := filled (engineAttribute? "formKey" task)
    outcomes := if outcomes.isEmpty then [.str "completed"] else outcomes
    stage := place.stage
    stageName := place.stageName }

/-- A human task is found, with the outcomes that its rules ask for, unless one of them stops. -/
theorem foundTask_eq (place : Place) (task : Content) :
    foundTask place task =
      match (taskRules task).find? ruleStops with
      | some rule => .error (ruleError rule)
      | none => .ok (taskWith place task (askedOutcomes task)) := by
  have hbind : foundTask place task = taskOutcomes task >>= fun os => .ok (taskWith place task os) := rfl
  rw [hbind, taskOutcomes_eq]
  cases (taskRules task).find? ruleStops <;> rfl

/-! ## Plan items -/

/-- What plan items among some pieces lead to, given what their definitions stand for. -/
def leadTo {β : Type} (stands : List (Option Text × List β)) (cs : List Content) : List β :=
  cs.flatMap fun c =>
    if c.isElement modelNamespace "planItem" then
      (Table.last? (plainAttribute? "definitionRef" c) stands).getD []
    else []

mutual

/-- What a child of a stage stands for: its identifier, and the human tasks that are reached through
it, each where it is found. -/
def standsFor? (place : Place) : Content → Option (Option Text × List (Place × Content))
  | .element name declared attributes children =>
    let here := Content.element name declared attributes children
    if here.isElement modelNamespace "stage" then
      some (plainAttribute? "id" here, leadTo (allStandFor (insideStage here) children) children)
    else if here.isElement modelNamespace "humanTask" then
      some (plainAttribute? "id" here, [(place, here)])
    else none
  | _ => none

/-- What the children of a stage stand for. -/
def allStandFor (place : Place) : List Content → List (Option Text × List (Place × Content))
  | [] => []
  | c :: rest => (standsFor? place c).toList ++ allStandFor place rest

end

/-- The human tasks of a stage in the order of its plan items, nested stages included. -/
def reached (place : Place) (stage : Content) : List (Place × Content) :=
  leadTo (allStandFor place stage.children) stage.children

/-- The task that is found in a human task at its place. -/
def findAt (x : Place × Content) : Except InspectionError FoundTask := foundTask x.1 x.2

/-- What is found where an entry of a table leads to. -/
def findAll (entry : Option Text × List (Place × Content)) :
    Option Text × Except InspectionError (List FoundTask) :=
  (entry.1, entry.2.mapM findAt)

/-- Plan items lead to tasks that are found one after another. -/
theorem referredTasks_map_findAll (stands : List (Option Text × List (Place × Content)))
    (cs : List Content) :
    referredTasks (stands.map findAll) cs = (leadTo stands cs).mapM findAt := by
  induction cs with
  | nil => rfl
  | cons c cs ih =>
    have hlast : Table.last? (plainAttribute? "definitionRef" c) (stands.map findAll) =
        (Table.last? (plainAttribute? "definitionRef" c) stands).map (·.mapM findAt) :=
      Table.last?_map _ _ stands
    rw [referredTasks, hlast, leadTo, List.flatMap_cons, List.mapM_append, ih]
    by_cases hitem : c.isElement modelNamespace "planItem" = true
    · rw [if_pos hitem, if_pos hitem]
      cases Table.last? (plainAttribute? "definitionRef" c) stands with
      | none => simp [leadTo]
      | some xs =>
        rw [Option.map_some, Option.getD_some]
        cases xs.mapM findAt <;> rfl
    · rw [if_neg hitem, if_neg hitem]
      simp [leadTo]

mutual

theorem definition?_eq : ∀ (place : Place) (c : Content),
    definition? place c = (standsFor? place c).map findAll
  | place, .element name declared attributes children => by
    have hinside := definitions_eq_map
      (insideStage (.element name declared attributes children)) children
    rw [definition?, standsFor?]
    split
    · rw [hinside, referredTasks_map_findAll]
      rfl
    · split
      · simp only [Option.map_some, findAll, findAt, List.mapM_cons, List.mapM_nil]
        cases foundTask place (.element name declared attributes children) <;> rfl
      · rfl
  | _, .text _ => rfl
  | _, .instruction .. => rfl
  | _, .other => rfl

theorem definitions_eq_map : ∀ (place : Place) (cs : List Content),
    definitions place cs = (allStandFor place cs).map findAll
  | _, [] => rfl
  | place, c :: cs => by
    rw [definitions, allStandFor, definition?_eq place c, definitions_eq_map place cs,
      List.map_append]
    cases standsFor? place c <;> rfl

end

/-- The tasks of a stage are found one after another. -/
theorem stageTasks_eq_mapM (place : Place) (stage : Content) :
    stageTasks place stage = (reached place stage).mapM findAt := by
  rw [stageTasks, definitions_eq_map, referredTasks_map_findAll, reached]

/-! ## Whole documents -/

/-- The task that is found in a human task at its place, if no rule stops. -/
def taskAt (x : Place × Content) : FoundTask := taskWith x.1 x.2 (askedOutcomes x.2)

theorem mem_foldl_addOutcome {values outcomes : List Json} {o : Json}
    (h : o ∈ values.foldl addOutcome outcomes) :
    o ∈ outcomes ∨ (o ∈ values ∧ o.isTruthy = true) := by
  induction values generalizing outcomes with
  | nil => exact .inl h
  | cons v vs ih =>
    rcases ih h with h | ⟨hmem, htruthy⟩
    · unfold addOutcome at h
      split at h
      · next hv =>
        rcases List.mem_append.1 h with h | h
        · exact .inl h
        · obtain rfl := List.mem_singleton.1 h
          exact .inr ⟨List.mem_cons_self, (Bool.and_eq_true_iff.1 hv).1⟩
      · exact .inl h
    · exact .inr ⟨List.mem_cons_of_mem _ hmem, htruthy⟩

/-- The outcomes of a task that is found: what its rules ask for, or else the default. -/
theorem outcomes_taskAt (x : Place × Content) :
    (taskAt x).outcomes = [.str "completed"] ∨
      ((taskAt x).outcomes ≠ [] ∧ ∀ o ∈ (taskAt x).outcomes,
        o.isTruthy = true ∧ ∃ rule ∈ taskRules x.2, o ∈ ruleValues rule) := by
  have hdef : (taskAt x).outcomes =
      if (askedOutcomes x.2).isEmpty then [.str "completed"] else askedOutcomes x.2 := rfl
  rw [hdef]
  split
  · exact .inl rfl
  · next hne =>
    refine .inr ⟨fun h => hne (by rw [h]; rfl), fun o ho => ?_⟩
    rcases mem_foldl_addOutcome ho with h | ⟨hmem, htruthy⟩
    · exact absurd h List.not_mem_nil
    · obtain ⟨rule, hrule, ho⟩ := List.mem_flatMap.1 hmem
      exact ⟨htruthy, rule, hrule, ho⟩

/-- Human tasks are found one after another, unless a rule of one of them stops. -/
theorem mapM_findAt (xs : List (Place × Content)) :
    xs.mapM findAt =
      match (xs.flatMap fun x => taskRules x.2).find? ruleStops with
      | some rule => .error (ruleError rule)
      | none => .ok (xs.map taskAt) := by
  induction xs with
  | nil => rfl
  | cons x xs ih =>
    rw [List.mapM_cons, findAt, foundTask_eq, ih, List.flatMap_cons, List.find?_append]
    cases (taskRules x.2).find? ruleStops with
    | some rule => rfl
    | none =>
      rw [Option.none_or]
      cases (xs.flatMap fun x => taskRules x.2).find? ruleStops <;> rfl

/-- The plan model of a document. -/
def planModel? (root : Content) : Option Content :=
  (modelChild? "case" root).bind (modelChild? "casePlanModel")

/-- The identifier of the case in a document. -/
def caseId (root : Content) : Text :=
  ((modelChild? "case" root).bind (plainAttribute? "id")).getD []

/-- The name of the case in a document, which is empty if there is no case. -/
def nameOf (root : Content) : Text :=
  if (modelChild? "case" root).isSome then
    caseName (caseId root) (((planModel? root).bind (plainAttribute? "id")).getD [])
  else []

/-- The human tasks that the plan items of the main stage lead to, each where it is found. -/
def reachedTasks (root : Content) : List (Place × Content) :=
  (((planModel? root).bind (modelChild? "stage")).map (reached { scope := nameOf root })).getD []

/-- The rules of the human tasks that are reached. -/
def reachedRules (root : Content) : List Json := (reachedTasks root).flatMap fun x => taskRules x.2

/-- What is reported on a document in which some tasks are found. -/
def reportOn (root : Content) (tasks : List FoundTask) : Report where
  errors := structureErrors root
  warnings := warnings root
  suggestions := suggestions root
  caseName := if (nameOf root).isEmpty then none else some (nameOf root)
  applicationId := applicationId? (nameOf root) (caseId root)
  tasks := tasks

/-- An inspection reports on the tasks that are reached, unless one of their rules stops. -/
theorem inspectRoot_eq (root : Content) :
    inspectRoot root =
      match (reachedRules root).find? ruleStops with
      | some rule => .error (ruleError rule)
      | none => .ok (reportOn root ((reachedTasks root).map taskAt)) := by
  have hbind : inspectRoot root = ((reachedTasks root).mapM findAt).map (reportOn root) := by
    unfold inspectRoot reachedTasks reportOn nameOf planModel? caseId
    cases modelChild? "case" root with
    | none => rfl
    | some c =>
      simp only [Option.bind_some, stageTasks_eq_mapM]
      cases (modelChild? "casePlanModel" c).bind (modelChild? "stage") with
      | none => rfl
      | some stage =>
        simp only [Option.map_some, Option.getD_some, Option.isSome_some, if_true]
        cases (reached _ stage).mapM findAt <;> rfl
  rw [hbind, mapM_findAt, reachedRules]
  cases ((reachedTasks root).flatMap fun x => taskRules x.2).find? ruleStops <;> rfl

end Inspection

/-- The root element of a document given as text. -/
def rootOf? (document : Text) : Option Content :=
  (Utf8.encode? document).toOption.bind Content.ofBytes?

/-- What is found in a document without surrogates is found in its root element, if it has one. -/
theorem inspect_eq {document : Text} (h : ∀ c ∈ document, Utf8.isSurrogate c = false) :
    inspect document =
      match rootOf? document with
      | some root => Inspection.inspectRoot root
      | none => .ok { errors := [unreadableDocument] } := by
  rw [inspect, rootOf?, Utf8.encode?_eq_ok h]
  rfl

/-- A report is on a document that cannot be read, or on what is reached from its root element. -/
theorem report_of_inspect {document : Text} {report : Report} (h : inspect document = .ok report) :
    (rootOf? document = none ∧ report = { errors := [unreadableDocument] }) ∨
      ∃ root, rootOf? document = some root ∧
        report = Inspection.reportOn root ((Inspection.reachedTasks root).map Inspection.taskAt) := by
  unfold inspect at h
  unfold rootOf?
  cases hbytes : Utf8.encode? document with
  | error e =>
    rw [hbytes] at h
    cases h
  | ok bytes =>
    rw [hbytes] at h
    show (Content.ofBytes? bytes = none ∧ _) ∨ ∃ root, Content.ofBytes? bytes = some root ∧ _
    unfold inspectBytes at h
    cases hroot : Content.ofBytes? bytes with
    | none =>
      simp only [hroot, Except.ok.injEq] at h
      exact .inl ⟨rfl, h.symm⟩
    | some root =>
      simp only [hroot, Inspection.inspectRoot_eq] at h
      split at h
      · cases h
      · exact .inr ⟨root, rfl, (Except.ok.inj h).symm⟩

/-- Every task in a report has outcomes. -/
theorem outcomes_ne_nil_of_inspect {document : Text} {report : Report}
    (h : inspect document = .ok report) : ∀ t ∈ report.tasks, t.outcomes ≠ [] := by
  intro t ht
  rcases report_of_inspect h with ⟨-, rfl⟩ | ⟨root, -, rfl⟩
  · exact absurd ht List.not_mem_nil
  · obtain ⟨x, -, rfl⟩ := List.mem_map.1 ht
    rcases Inspection.outcomes_taskAt x with hdefault | ⟨hne, -⟩
    · rw [hdefault]
      exact List.cons_ne_nil _ _
    · exact hne

end CasePlan
