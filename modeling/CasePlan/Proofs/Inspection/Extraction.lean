import CasePlan.Proofs.Inspection.Description
import CasePlan.Proofs.Inspection.Recovery

/-!
# Descriptions out of compiled documents

What is found in a compiled document holds a description, and it is the one that was compiled but
for what a document does not keep.

* `Logic.recovered`: a description as it comes back.
* `isXmlText_of_attribute?`: what is read from an attribute could be written.
* `ofFound_eq_recovered`, `consistent_recovered`: the found tasks make that description, and it is
  accepted.
* `inspect_extract_compile`: compiling, inspecting and extracting, one after another.
-/

namespace CasePlan

open Document Xml Inspection

/-- A task as it comes back: texts that are empty are gone, the assignee and the form are filled in,
an outcome is named once, and the limit is not there. -/
def Task.recovered (config : Config) (t : Task) : Task where
  slug := t.slug
  displayName := t.displayName
  outcomes := t.outcomes.eraseDups
  assignee := filled (some (textOr t.assignee config.assignee))
  candidateGroups := filled t.candidateGroups
  dueDate := filled t.dueDate
  formKey := some (textOr t.formKey (t.slug ++ "Form"))

/-- A description as it comes back: tasks and stages in the order of the diagram, and one pattern
over all tasks. -/
def Logic.recovered (config : Config) (logic : Logic) : Logic where
  tasks := logic.inDiagramOrder.map (·.recovered config)
  patterns := Pattern.chain (logic.inDiagramOrder.map (·.slug))
  stages := logic.stagesInDiagramOrder

namespace Inspection

variable {case : Case} {config : Config} {logic : Logic} {stage : Option Stage} {t : Task}

/-! ## Tasks -/

theorem filled_filled (value : Option Text) : filled (filled value) = filled value := by
  rcases value with _ | _ | ⟨c, rest⟩ <;> rfl

/-- A task that is found is the task as it comes back. -/
theorem asTask_ofTask (hslug : t.slug ≠ []) :
    (FoundTask.ofTask case config stage t).asTask = t.recovered config := by
  have hform : textOr t.formKey (t.slug ++ "Form") ≠ [] := by
    refine textOr_ne_nil ?_
    rw [Ne, List.append_eq_nil_iff]
    exact fun h => hslug h.1
  have houtcomes : (t.outcomes.eraseDups.map Json.str).filterMap Json.text? = t.outcomes.eraseDups := by
    rw [List.filterMap_map]
    exact List.filterMap_some
  rw [FoundTask.asTask, FoundTask.ofTask, Task.recovered]
  simp only [filled_filled, filled_some hform, houtcomes]

theorem isXmlText_of_mem_filled {v : Option Text} (h : ∀ s ∈ v, s.isXmlText = true) :
    ∀ s ∈ filled v, s.isXmlText = true :=
  fun _ hs => h _ (Option.eq_some_of_filter_eq_some hs)

/-- A task as it comes back is sound, if XML can carry whom it is given to. -/
theorem sound_recovered (ht : t.Sound)
    (hassignee : (textOr t.assignee config.assignee).isXmlText = true) :
    (t.recovered config).Sound where
  slug := ht.slug
  displayName := ht.displayName
  outcomes_ne_nil := by
    obtain ⟨o, ho⟩ := List.exists_mem_of_ne_nil _ ht.outcomes_ne_nil
    exact List.ne_nil_of_mem (List.mem_eraseDups.2 ho)
  outcomes := fun o ho => ht.outcomes o (List.mem_eraseDups.1 ho)
  assignee := by
    refine isXmlText_of_mem_filled (v := some (textOr t.assignee config.assignee)) fun s hs => ?_
    obtain rfl := Option.some.inj hs
    exact hassignee
  candidateGroups := isXmlText_of_mem_filled ht.candidateGroups
  dueDate := isXmlText_of_mem_filled ht.dueDate
  formKey := by
    intro s hs
    obtain rfl := Option.some.inj hs
    refine isXmlText_textOr ht.formKey ?_
    rw [Text.isXmlText_append]
    exact ⟨ht.slug.isXmlText, rfl⟩
  repetitionLimit := by simp [Task.recovered]

/-! ## Stages -/

/-- The stages of the tasks that are found. -/
theorem stageSlugs_ofTask (hc : logic.Consistent) :
    stageSlugs (logic.inDiagramOrder.map fun t =>
        FoundTask.ofTask case config (logic.stageOf? t.slug) t) =
      logic.stagesInDiagramOrder.map (·.slug) := by
  rw [← Logic.eraseDups_stageOf_inDiagramOrder hc, stageSlugs, List.filterMap_map]
  congr 1
  refine List.filterMap_congr fun t _ => ?_
  show filled ((logic.stageOf? t.slug).map (·.slug)) = (logic.stageOf? t.slug).map (·.slug)
  cases hs : logic.stageOf? t.slug with
  | none => rfl
  | some s => exact filled_some (hc.stage s (Logic.mem_of_stageOf?_eq_some hs).1).slug.ne_nil

/-- The stage in which tasks are found. -/
theorem ofFound_ofTask (hc : logic.Consistent) {s : Stage} (hs : s ∈ logic.stages) :
    Stage.ofFound (logic.inDiagramOrder.map fun t =>
      FoundTask.ofTask case config (logic.stageOf? t.slug) t) s.slug = s := by
  have hmembers : (logic.inDiagramOrder.map fun t =>
        FoundTask.ofTask case config (logic.stageOf? t.slug) t).filter
          (fun t => t.stage = some s.slug) =
      ((Layout.Item.stage s).tasks logic).map fun t =>
        FoundTask.ofTask case config (logic.stageOf? t.slug) t := by
    rw [List.filter_map, ← Logic.filter_inDiagramOrder hc hs]
    rfl
  have hslugs : (((Layout.Item.stage s).tasks logic).map fun t =>
      FoundTask.ofTask case config (logic.stageOf? t.slug) t).map (·.slug) = s.members := by
    rw [← Logic.map_slug_tasks hc hs, List.map_map]
    rfl
  have hname : ((((Layout.Item.stage s).tasks logic).map fun t =>
      FoundTask.ofTask case config (logic.stageOf? t.slug) t).head?).bind (·.stageName) =
        some s.displayName := by
    have hitem := (Layout.mem_items_stage hc).2 hs
    cases htasks : (Layout.Item.stage s).tasks logic with
    | nil =>
      have hnone := Logic.map_slug_tasks hc hs
      rw [htasks] at hnone
      exact absurd hnone.symm (hc.stage s hs).members_ne_nil
    | cons t ts =>
      rw [List.map_cons, List.head?_cons, Option.bind_some, FoundTask.ofTask,
        Logic.stageOf?_of_mem_tasks hc hitem (by rw [htasks]; exact List.mem_cons_self)]
      rfl
  rw [Stage.ofFound, stageName?, hmembers, hslugs, hname,
    filled_some (hc.stage s hs).displayName_ne_nil, Option.getD_some]

/-! ## The whole description -/

/-- The tasks that are found make the description as it comes back. -/
theorem ofFound_eq_recovered (hc : logic.Consistent) :
    Logic.ofFound (logic.inDiagramOrder.map fun t =>
      FoundTask.ofTask case config (logic.stageOf? t.slug) t) = logic.recovered config := by
  have htasks : (logic.inDiagramOrder.map fun t =>
      FoundTask.ofTask case config (logic.stageOf? t.slug) t).map (·.asTask) =
        logic.inDiagramOrder.map (·.recovered config) := by
    rw [List.map_map]
    exact List.map_congr_left fun t ht =>
      asTask_ofTask (hc.task t ((Logic.mem_inDiagramOrder hc).1 ht)).slug.ne_nil
  have hslugs : (logic.inDiagramOrder.map fun t =>
      FoundTask.ofTask case config (logic.stageOf? t.slug) t).map (·.slug) =
        logic.inDiagramOrder.map (·.slug) := by
    rw [List.map_map]
    rfl
  have hstages : (logic.stagesInDiagramOrder.map (·.slug)).map (Stage.ofFound
      (logic.inDiagramOrder.map fun t =>
        FoundTask.ofTask case config (logic.stageOf? t.slug) t)) = logic.stagesInDiagramOrder := by
    rw [List.map_map]
    refine (List.map_congr_left fun s hs => ?_).trans (List.map_id _)
    exact ofFound_ofTask hc ((Logic.mem_stagesInDiagramOrder hc).1 hs)
  rw [Logic.ofFound, stageSlugs_ofTask hc, htasks, hslugs, hstages, Logic.recovered]

/-- The data of the tasks that are found hold the description as it comes back. -/
theorem heldBy_logicData (hc : logic.Consistent) :
    (logic.recovered config).HeldBy (logicData (logic.inDiagramOrder.map fun t =>
      FoundTask.ofTask case config (logic.stageOf? t.slug) t)) := by
  refine heldBy_logicData_iff.2 ⟨(ofFound_eq_recovered hc).symm, ?_, ?_⟩
  · rw [List.forall_mem_map]
    intro t ht
    rw [asTask_ofTask (hc.task t ((Logic.mem_inDiagramOrder hc).1 ht)).slug.ne_nil]
    rfl
  · rw [stageSlugs_ofTask hc, List.forall_mem_map]
    intro s hs
    have hmem := (Logic.mem_stagesInDiagramOrder hc).1 hs
    rw [ofFound_ofTask hc hmem]
    exact (hc.stage s hmem).displayName

end Inspection

theorem Stage.Sound.congr {slugs slugs' : List Text} {s : Stage} (h : s.Sound slugs)
    (hslugs : slugs.Perm slugs') : s.Sound slugs' where
  slug := h.slug
  slug_notMem := fun hmem => h.slug_notMem (hslugs.mem_iff.2 hmem)
  displayName_ne_nil := h.displayName_ne_nil
  displayName := h.displayName
  members_ne_nil := h.members_ne_nil
  members_subset := fun m hm => hslugs.mem_iff.1 (h.members_subset m hm)

namespace Logic

variable {logic : Logic} {config : Config}

theorem slugs_recovered (config : Config) (logic : Logic) :
    (logic.recovered config).slugs = logic.inDiagramOrder.map (·.slug) := by
  rw [slugs, recovered, List.map_map]
  rfl

/-- A description as it comes back is consistent, if XML can carry to whom its tasks are given. -/
theorem consistent_recovered (hc : logic.Consistent)
    (hassignee : ∀ t ∈ logic.tasks, (textOr t.assignee config.assignee).isXmlText = true) :
    (logic.recovered config).Consistent := by
  have htasks := perm_inDiagramOrder hc
  have hstages := perm_stagesInDiagramOrder hc
  have hslugs : (logic.recovered config).slugs.Perm logic.slugs := by
    rw [slugs_recovered]
    exact htasks.map _
  have hmember : ∀ t ∈ logic.inDiagramOrder, t.slug ∈ (logic.recovered config).slugs := by
    intro t ht
    rw [slugs_recovered]
    exact List.mem_map_of_mem ht
  constructor
  case tasks_ne_nil =>
    obtain ⟨t, ht⟩ := List.exists_mem_of_ne_nil _ hc.tasks_ne_nil
    exact List.ne_nil_of_mem (List.mem_map_of_mem (htasks.mem_iff.2 ht))
  case nodup_slugs => exact hslugs.nodup_iff.2 hc.nodup_slugs
  case task =>
    rw [recovered, List.forall_mem_map]
    intro t ht
    have hmem := htasks.mem_iff.1 ht
    exact sound_recovered (hc.task t hmem) (hassignee t hmem)
  case nodup_stages => exact (hstages.map _).nodup_iff.2 hc.nodup_stages
  case nodup_members => exact (hstages.flatMap_right _).nodup_iff.2 hc.nodup_members
  case stage => exact fun s hs => (hc.stage s (hstages.mem_iff.1 hs)).congr hslugs.symm
  case pattern =>
    intro p hp
    rw [recovered, Pattern.chain] at hp
    split at hp
    · next hlength =>
      obtain rfl := List.mem_singleton.1 hp
      have hne : logic.inDiagramOrder.map (·.slug) ≠ [] := by
        rw [← List.length_pos_iff]
        exact Nat.zero_lt_of_lt hlength
      exact ⟨hne, List.forall_mem_map.2 hmember, by simp, by simp, by simp⟩
    · exact absurd hp List.not_mem_nil

end Logic

/-! ## Compiled documents -/

namespace Document

variable {α : Type} [Coordinate α] {c : Context α} {t : Xml.Node Text}

/-- What is read from an attribute of a case could be written. -/
theorem isXmlText_of_attribute? (hs : c.Sound) (ht : tree c = .ok t) {x : Content}
    (hx : x ∈ (seen (caseElement c)).descendants) {space base : Text}
    (helement : x.isElement space base = true) {key : Option Text} {name value : Text}
    (h : x.attribute? key name = some value) : value.isXmlText = true := by
  obtain ⟨k, d, hk, -, -⟩ := exists_of_tree ht
  obtain ⟨y, hy, rfl⟩ := List.mem_map.1 hx
  rw [← content_settle hk] at hy
  rcases mem_descendantsUnder_content (within_traverse (isGood_caseElement hs).2 hk) hy with
    hnone | ⟨own, attributes, children, hsettled, hread⟩
  · rw [hnone] at helement
    exact absurd helement Bool.false_ne_true
  · rw [hread, Xml.Node.content, Content.attribute?, Option.map_eq_some_iff] at h
    obtain ⟨a, ha, rfl⟩ := h
    obtain ⟨b, hb, rfl⟩ := List.mem_map.1 (List.mem_of_find?_eq_some ha)
    exact hsettled.1.values b hb

/-- XML can carry to whom the tasks of a document are given. -/
theorem isXmlText_assignee (hs : c.Sound) (ht : tree c = .ok t) {task : Task}
    (htask : task ∈ c.logic.tasks) : (textOr task.assignee c.config.assignee).isXmlText = true := by
  obtain ⟨n, hn, hshows⟩ := hs.diagram.exists_showsTask hs.logic htask
  have hfound : c.logic.task? n.slug = some task := by
    rw [hshows.slug, hs.logic.task?_eq_some htask]
  have hself : seen (taskPiece c n task) ∈ (seen (humanTask c n)).descendants := by
    rw [humanTask_eq hfound, taskPiece, element, seen_element]
    exact Content.mem_descendants_self _ _ _ _
  have helement : (seen (taskPiece c n task)).isElement modelNamespace "humanTask" = true := rfl
  exact isXmlText_of_attribute? hs ht (mem_descendants_of_humanTask hs hn hshows.kind hself) helement
    attributes_taskPiece.2.2.1

end Document

/-- The description in a report that lists the tasks of a description. -/
theorem Report.toLogic_eq {case : Case} {config : Config} {logic : Logic} {report : Report}
    (hc : logic.Consistent)
    (hassignee : ∀ t ∈ logic.tasks, (textOr t.assignee config.assignee).isXmlText = true)
    (herrors : report.errors = [])
    (htasks : report.tasks = logic.inDiagramOrder.map fun t =>
      FoundTask.ofTask case config (logic.stageOf? t.slug) t) :
    report.toLogic = .ok (logic.recovered config) := by
  have hvalid : report.isValid = true := by
    rw [Report.isValid, herrors]
    rfl
  have hsome : report.tasks.isEmpty = false := by
    obtain ⟨t, ht⟩ := List.exists_mem_of_ne_nil _ hc.tasks_ne_nil
    rw [List.isEmpty_eq_false_iff, htasks]
    exact List.ne_nil_of_mem (List.mem_map_of_mem ((Logic.mem_inDiagramOrder hc).2 ht))
  have hparse : Logic.parse (logicData report.tasks) = .ok (logic.recovered config) := by
    show Logic.accept (logicData report.tasks) = _
    rw [htasks]
    exact accept_eq_ok_iff.2 ⟨heldBy_logicData hc, Logic.consistent_recovered hc hassignee⟩
  rw [toLogic, hvalid, hsome, hparse]
  rfl

/-- Nothing is lost in a document but what it is not to keep.  An inspection finds the tasks in the
order of the diagram and nothing wrong; the description that comes out holds them, the stages in
their order, and one pattern over all tasks. -/
theorem inspect_extract_compile {config : Config} {name raw : Json}
    {application : Except CompileError Application} {compiled : Compiled}
    (h : compile config (Case.make name application) (Logic.parse raw) = .ok compiled) :
    ∃ case logic report, name = .str case.name ∧ application = .ok case.application ∧
      Logic.parse raw = .ok logic ∧
      logic.inDiagramOrder.Perm logic.tasks ∧
      logic.inDiagramOrder.map (·.slug) = compiled.diagram.taskNodes.map (·.slug) ∧
      logic.stagesInDiagramOrder.Perm logic.stages ∧
      logic.stagesInDiagramOrder.map (·.slug) = compiled.diagram.stageNodes.map (·.slug) ∧
      inspect compiled.document = .ok report ∧ report.errors = [] ∧ report.warnings = [] ∧
      report.caseName = some case.name ∧
      report.applicationId = some case.application.identifier ∧
      report.tasks = (logic.inDiagramOrder.map fun t =>
        FoundTask.ofTask case config (logic.stageOf? t.slug) t) ∧
      extract compiled.document = .ok (logic.recovered config) := by
  obtain ⟨case, logic, c, t, hcase, hlogic, hprepare, -, ht, rfl⟩ := compile_eq_ok_iff.1 h
  have hc := consistent_of_parse hlogic
  obtain ⟨hs, rfl, rfl, rfl⟩ := sound_of_prepare hc hprepare
  obtain ⟨hname, happlication, hcaseName⟩ := Case.make_eq_ok_iff.1 hcase
  have hne : c.case.name ≠ [] := by
    intro h
    rw [h] at hcaseName
    exact absurd hcaseName Bool.false_ne_true
  have hinspect := inspect_render hs ht c.config.prettyPrint
  rw [inspectRoot_seenRoot hs hne] at hinspect
  refine ⟨c.case, c.logic, _, hname, happlication, hlogic, Logic.perm_inDiagramOrder hc,
    (Diagram.map_slug_taskNodes hs.diagram hc).symm, Logic.perm_stagesInDiagramOrder hc,
    (Diagram.map_slug_stageNodes hs.diagram).symm, hinspect, rfl, rfl, rfl, rfl, rfl, ?_⟩
  rw [extract, hinspect]
  exact Report.toLogic_eq hc (fun _ htask => isXmlText_assignee hs ht htask) rfl rfl

/-- The sample, compiled, with nobody to give its tasks to. -/
theorem inspect_extract_compile_sample : ∃ compiled,
    compile {} (Case.make (.str "review") (.ok { identifier := "app" }))
        (Logic.parse Logic.sampleValue) = .ok compiled ∧
      extract compiled.document = .ok (Logic.sample.recovered {}) := by
  obtain ⟨compiled, hcompile⟩ := compile_sample
  refine ⟨compiled, hcompile, ?_⟩
  obtain ⟨case, logic, report, -, -, hlogic, -, -, -, -, -, -, -, -, -, -, hextract⟩ :=
    inspect_extract_compile hcompile
  obtain rfl := Except.ok.inj (Logic.parse_sampleValue.symm.trans hlogic)
  exact hextract

end CasePlan
