import CasePlan.Proofs.Inspection.Elements

/-!
# What the texts of a document can change

The rules of a listener are text, and may be anything.  An inspection that is not stopped by a rule
finds the same as in the document without its texts, but for outcomes and for fewer warnings.

* `Content.mute`: the tree with every run of text emptied, which has the same elements
  (`keeps_mute`).
* `listenerPayload_mute`: no listener has rules there, and so every task has the default outcome.
* `Report.Echoes`: what two such reports have in common; `echoes_reportOn`.
* `inspect_inspected`: when an inspection reports, and what.
-/

namespace CasePlan

namespace Xml.Content

mutual

/-- The tree with every run of text emptied. -/
def mute : Content → Content
  | element name declared attributes children =>
    element name declared attributes (muteAll children)
  | text _ => text []
  | c => c

/-- Some trees with every run of text emptied. -/
def muteAll : List Content → List Content
  | [] => []
  | c :: rest => mute c :: muteAll rest

end

theorem muteAll_eq_map (cs : List Content) : muteAll cs = cs.map mute := by
  induction cs with
  | nil => rfl
  | cons c cs ih => rw [muteAll, ih, List.map_cons]

theorem children_mute (c : Content) : c.mute.children = c.children.map mute := by
  cases c with
  | element name declared attributes children => exact muteAll_eq_map children
  | _ => rfl

/-- Texts alone are emptied. -/
theorem keeps_mute : KeepsElements mute where
  element _ _ _ children := ⟨_, rfl, by
    have hkept : ∀ c : Content, (!c.mute.isText) = !c.isText := by
      intro c
      cases c <;> rfl
    rw [muteAll_eq_map, List.filter_map]
    exact congrArg _ (List.filter_congr fun c _ => hkept c)⟩
  text _ := ⟨[], rfl⟩
  instruction _ _ := rfl
  other := rfl

/-- No element begins with text. -/
theorem leadingText_mute (c : Content) : c.mute.leadingText = [] := by
  rw [leadingText, children_mute, List.flatMap_eq_nil_iff]
  intro d hd
  obtain ⟨e, -, rfl⟩ := List.mem_map.1 (List.takeWhile_subset _ hd)
  cases e <;> rfl

end Xml.Content

namespace Inspection

open Document Xml Xml.Content

/-! ## Listeners without rules -/

/-- A listener without texts has no rules. -/
theorem listenerPayload_mute (listener : Content) : listenerPayload listener.mute = [] := by
  rw [keeps_mute.listenerPayload]
  simp only [leadingText_mute]
  cases (ruleTexts listener).head? <;> rfl

theorem readRules?_nil : Outcome.readRules? [] = none := by rfl

theorem taskRules_mute (task : Content) : taskRules task.mute = [] := by
  rw [keeps_mute.taskRules, List.flatMap_eq_nil_iff]
  intro l _
  rw [listenerPayload_mute, readRules?_nil]
  rfl

/-- No rule stops, and every task has the default outcome. -/
theorem inspectRoot_mute (root : Content) :
    inspectRoot root.mute = .ok (reportOn root.mute
      ((reachedTasks root).map fun x => taskWith x.1 x.2 [])) := by
  have hrules : reachedRules root.mute = [] := by
    rw [reachedRules, keeps_mute.reachedTasks, List.flatMap_map, List.flatMap_eq_nil_iff]
    exact fun x _ => taskRules_mute x.2
  rw [inspectRoot_eq, hrules, keeps_mute.reachedTasks, List.map_map]
  refine congrArg (fun ts => Except.ok (reportOn root.mute ts)) (List.map_congr_left fun x _ => ?_)
  have hasked : askedOutcomes x.2.mute = [] := by
    rw [askedOutcomes, taskRules_mute]
    rfl
  rw [Function.comp_apply, Prod.map, id, taskAt, hasked, keeps_mute.taskWith]

/-- Who picks more from a list picks the same in the same order. -/
theorem filterMap_sublist_filterMap {α β : Type} {f g : α → Option β} {l : List α}
    (h : ∀ x ∈ l, ∀ y, f x = some y → g x = some y) : (l.filterMap f).Sublist (l.filterMap g) := by
  induction l with
  | nil => exact .slnil
  | cons x l ih =>
    rw [List.forall_mem_cons] at h
    cases hf : f x with
    | some y =>
      rw [List.filterMap_cons_some hf, List.filterMap_cons_some (h.1 y hf)]
      exact .cons_cons _ (ih h.2)
    | none =>
      rw [List.filterMap_cons_none hf]
      refine (ih h.2).trans ?_
      cases hg : g x with
      | none => rw [List.filterMap_cons_none hg]
      | some y =>
        rw [List.filterMap_cons_some hg]
        exact List.sublist_cons_self _ _

/-- Without texts every listener is warned about; with them, those are whose rules cannot be read. -/
theorem warnings_sublist_mute (root : Content) : (warnings root).Sublist (warnings root.mute) := by
  unfold warnings
  rw [keeps_mute.listeners, keeps_mute.listeners, keeps_mute.modelChild?, List.map_map,
    List.zipIdx_map, List.filterMap_map]
  refine List.Sublist.append (List.Sublist.append (List.Sublist.refl _) ?_) ?_
  · refine filterMap_sublist_filterMap fun x _ w hw => ?_
    obtain ⟨⟨listener, owner⟩, i⟩ := x
    simp only [Function.comp_apply, Prod.map, id, listenerPayload_mute, readRules?_nil]
    dsimp only at hw
    split at hw
    · cases hw
    · exact hw
  · cases modelChild? "case" root with
    | none => exact List.Sublist.refl _
    | some c =>
      simp only [Option.map_some, keeps_mute.engineAttribute?, keeps_mute.plainAttribute?]
      exact List.Sublist.refl _

end Inspection

/-- A report says the same as one in which no task has rules, but for outcomes and warnings. -/
structure Report.Echoes (report silent : Report) : Prop where
  /-- The same errors, -/
  errors : report.errors = silent.errors
  /-- the same suggestions, -/
  suggestions : report.suggestions = silent.suggestions
  /-- the same name of the case, -/
  caseName : report.caseName = silent.caseName
  /-- the same application, -/
  applicationId : report.applicationId = silent.applicationId
  /-- at most the same warnings, -/
  warnings : report.warnings.Sublist silent.warnings
  /-- and the same tasks with the default outcome. -/
  tasks : silent.tasks = report.tasks.map fun t => { t with outcomes := [.str "completed"] }

namespace Inspection

open Xml Xml.Content

theorem echoes_reportOn (root : Content) :
    (reportOn root ((reachedTasks root).map taskAt)).Echoes
      (reportOn root.mute ((reachedTasks root).map fun x => taskWith x.1 x.2 [])) where
  errors := by rw [keeps_mute.reportOn]; rfl
  suggestions := by rw [keeps_mute.reportOn]; rfl
  caseName := by rw [keeps_mute.reportOn]; rfl
  applicationId := by rw [keeps_mute.reportOn]; rfl
  warnings := warnings_sublist_mute root
  tasks := by
    rw [reportOn, reportOn, List.map_map]
    rfl

end Inspection

/-! ## When an inspection reports -/

open Inspection

/-- What comes of inspecting a document. -/
structure Inspected (document : Text) : Prop where
  /-- There is a report exactly if no rule of a human task that is reached stops. -/
  reports_iff : (∃ report, inspect document = .ok report) ↔
    ∀ root, rootOf? document = some root → ∀ x ∈ reachedTasks root, ∀ rule ∈ taskRules x.2,
      ruleStops rule = false
  /-- If there is none, the first rule that stops is the reason: its conditions are `true` or a
  number. -/
  error : ∀ e, inspect document = .error e →
    (∃ root, rootOf? document = some root ∧
      ∃ rule, (reachedRules root).find? ruleStops = some rule ∧ e = ruleError rule) ∧
    ∃ word ∈ (["bool", "int", "float"] : List Text), e = .notIterable word
  /-- A document that cannot be read is reported on. -/
  unreadable : rootOf? document = none → inspect document = .ok { errors := [unreadableDocument] }
  /-- The rules of a document change outcomes and warnings only. -/
  echoes : ∀ root report, rootOf? document = some root → inspect document = .ok report →
    ∃ silent, inspectRoot root.mute = .ok silent ∧ report.Echoes silent
  /-- The tasks in a report are those that are reached, with what their rules ask for, or else with
  the default outcome. -/
  tasks : ∀ root report, rootOf? document = some root → inspect document = .ok report →
    List.Forall₂ (fun x t => t.outcomes = [.str "completed"] ∨
      (t.outcomes ≠ [] ∧ ∀ o ∈ t.outcomes,
        o.isTruthy = true ∧ ∃ rule ∈ taskRules x.2, o ∈ ruleValues rule))
      (reachedTasks root) report.tasks

/-- No document but one with a rule that stops is left without a report. -/
theorem inspect_inspected {document : Text} (h : ∀ c ∈ document, Utf8.isSurrogate c = false) :
    Inspected document := by
  have hrules : ∀ root : Xml.Content, (reachedRules root).find? ruleStops = none ↔
      ∀ x ∈ reachedTasks root, ∀ rule ∈ taskRules x.2, ruleStops rule = false := by
    intro root
    rw [List.find?_eq_none, reachedRules, List.forall_mem_flatMap]
    simp only [Bool.not_eq_true]
  have hreport : ∀ root report, rootOf? document = some root → inspect document = .ok report →
      report = reportOn root ((reachedTasks root).map taskAt) := by
    intro root report hroot hinspect
    rcases report_of_inspect hinspect with ⟨hnone, -⟩ | ⟨root', hroot', hreport⟩
    · rw [hnone] at hroot
      cases hroot
    · obtain rfl := Option.some.inj (hroot.symm.trans hroot')
      exact hreport
  constructor
  case reports_iff =>
    rw [inspect_eq h]
    cases hroot : rootOf? document with
    | none => simp
    | some root =>
      simp only [Option.some.injEq, forall_eq', inspectRoot_eq]
      rw [← hrules]
      cases (reachedRules root).find? ruleStops <;> simp
  case error =>
    intro e he
    rw [inspect_eq h] at he
    cases hroot : rootOf? document with
    | none =>
      rw [hroot] at he
      cases he
    | some root =>
      rw [hroot] at he
      simp only [inspectRoot_eq] at he
      split at he
      · next rule hrule =>
        obtain rfl := Except.error.inj he
        exact ⟨⟨root, rfl, rule, hrule, rfl⟩, ruleError_of_ruleStops (List.find?_some hrule)⟩
      · cases he
  case unreadable =>
    intro hroot
    rw [inspect_eq h, hroot]
  case echoes =>
    intro root report hroot hinspect
    rw [hreport root report hroot hinspect]
    exact ⟨_, inspectRoot_mute root, echoes_reportOn root⟩
  case tasks =>
    intro root report hroot hinspect
    rw [hreport root report hroot hinspect]
    exact forall₂_map_of_forall_mem fun x _ => outcomes_taskAt x

/-- A document in which the conditions of a rule are a number. -/
def countedConditions : Text :=
  "<definitions xmlns='" ++ Document.modelNamespace ++ "' xmlns:f='" ++ Document.engineNamespace ++
    "'>" ++ "<case><casePlanModel><stage>" ++ "<planItem definitionRef='a'/>" ++
    "<humanTask id='a'>" ++ "<f:taskListener class='" ++ Document.statusListener ++ "'>" ++
    "<f:field><f:string>" ++ "[\x7b\"conditions\":1\x7d]" ++ "</f:string></f:field>" ++
    "</f:taskListener>" ++ "</humanTask></stage>" ++ "</casePlanModel></case>" ++ "</definitions>"

/-- It is left without a report. -/
theorem inspect_inspected_counted :
    (∀ c ∈ countedConditions, Utf8.isSurrogate c = false) ∧
      ¬∃ report, inspect countedConditions = .ok report := by
  have hplain : ∀ c ∈ countedConditions, Utf8.isSurrogate c = false := by
    have hall : (countedConditions.all fun c => !Utf8.isSurrogate c) = true := by decide +kernel
    intro c hc
    simpa using List.all_eq_true.1 hall c hc
  have hstops : (rootOf? countedConditions).any (fun root =>
      (reachedTasks root).any fun x => (taskRules x.2).any ruleStops) = true := by decide +kernel
  refine ⟨hplain, fun hreport => ?_⟩
  obtain ⟨root, hroot, hstops⟩ := (Option.any_eq_true _ _).1 hstops
  obtain ⟨x, hx, hstops⟩ := List.any_eq_true.1 hstops
  obtain ⟨rule, hrule, hstops⟩ := List.any_eq_true.1 hstops
  have hgoes := (inspect_inspected hplain).reports_iff.1 hreport root hroot x hx rule hrule
  exact absurd (hgoes.symm.trans hstops) Bool.false_ne_true

end CasePlan
