import CasePlan.Proofs.Distinct
import CasePlan.Proofs.Document.Texts
import CasePlan.Proofs.Inspection.Extraction

/-!
# Compiling what was extracted

A description as it comes back from a document is as it comes back from a document of its own: its
tasks stand in the order of the diagram already, its stages too, and what was filled in is filled
in.  It also passes the checks that the first description passed.

* `Task.recovered_recovered`, `Logic.recovered_recovered`: what comes back comes back unchanged.
* `items_recovered`: both descriptions have the same diagram, but for names of tasks that are kept.
* `perm_listed_recovered`: the same identifiers are compared.
* `extract_recompile`: extracting, compiling again and extracting again.
-/

namespace CasePlan

open Document Inspection Layout

/-! ## Tasks -/

/-- Leaving an empty text out makes no difference to what is filled in for it. -/
theorem textOr_filled (value : Option Text) (otherwise : Text) :
    textOr (filled value) otherwise = textOr value otherwise := by
  rcases value with _ | _ | ⟨c, rest⟩ <;> rfl

/-- What is filled in is filled in once. -/
theorem textOr_textOr (value : Option Text) (otherwise : Text) :
    textOr (some (textOr value otherwise)) otherwise = textOr value otherwise := by
  rcases value with _ | _ | ⟨c, rest⟩ <;> cases otherwise <;> rfl

/-- A task that came back comes back unchanged. -/
theorem Task.recovered_recovered (config : Config) (t : Task) :
    (t.recovered config).recovered config = t.recovered config := by
  simp only [Task.recovered, textOr_filled, textOr_textOr, filled_filled,
    eraseDups_eq_self (nodup_eraseDups t.outcomes)]

/-- The item of a description that came back. -/
def Layout.Item.recovered (config : Config) : Item → Item
  | .task t => .task (t.recovered config)
  | .stage s => .stage s

namespace Logic

variable {logic : Logic} {config : Config}

/-! ## Look-ups -/

theorem mem_tasks_recovered (hc : logic.Consistent) {t : Task} :
    t ∈ (logic.recovered config).tasks ↔ ∃ u ∈ logic.tasks, u.recovered config = t := by
  rw [recovered, List.mem_map]
  exact exists_congr fun u => and_congr_left' (mem_inDiagramOrder hc)

theorem mem_stages_recovered (hc : logic.Consistent) {s : Stage} :
    s ∈ (logic.recovered config).stages ↔ s ∈ logic.stages :=
  mem_stagesInDiagramOrder hc

/-- The task with a slug comes back under its slug. -/
theorem task?_recovered (hc : logic.Consistent) (hr : (logic.recovered config).Consistent)
    (slug : Text) :
    (logic.recovered config).task? slug = (logic.task? slug).map (·.recovered config) := by
  cases h : logic.task? slug with
  | some t =>
    obtain ⟨ht, rfl⟩ := mem_of_task?_eq_some h
    exact hr.task?_eq_some ((mem_tasks_recovered hc).2 ⟨t, ht, rfl⟩)
  | none =>
    cases h' : (logic.recovered config).task? slug with
    | none => rfl
    | some t =>
      obtain ⟨ht, rfl⟩ := mem_of_task?_eq_some h'
      obtain ⟨u, hu, rfl⟩ := (mem_tasks_recovered hc).1 ht
      have hfound : logic.task? u.slug = some u := hc.task?_eq_some hu
      exact absurd (hfound.symm.trans h) (Option.some_ne_none u)

/-- Tasks come back in the stages they were in. -/
theorem stageOf?_recovered (hc : logic.Consistent) (hr : (logic.recovered config).Consistent)
    (slug : Text) : (logic.recovered config).stageOf? slug = logic.stageOf? slug := by
  cases h : logic.stageOf? slug with
  | some s =>
    obtain ⟨hs, hslug⟩ := mem_of_stageOf?_eq_some h
    exact hr.stageOf?_eq_some ((mem_stages_recovered hc).2 hs) hslug
  | none =>
    rw [stageOf?_eq_none_iff] at h ⊢
    exact fun s hs => h s ((mem_stages_recovered hc).1 hs)

/-! ## The order of the diagram -/

/-- The tasks of an item come back as those of the item that came back. -/
theorem tasks_recovered (hc : logic.Consistent) (hr : (logic.recovered config).Consistent)
    (item : Item) :
    (item.recovered config).tasks (logic.recovered config) =
      (item.tasks logic).map (·.recovered config) := by
  cases item with
  | task t => rfl
  | stage s =>
    rw [Item.recovered, Item.tasks, Item.tasks, List.map_filterMap]
    exact List.filterMap_congr fun slug _ => task?_recovered hc hr slug

theorem stage?_recovered (item : Item) : (item.recovered config).stage? = item.stage? := by
  cases item <;> rfl

/-- The tasks of a stage that stands already add nothing to a diagram. -/
theorem itemsFrom_append {placed : List Text} {s : Stage} (hs : s.slug ∈ placed) {ts : List Task}
    (hts : ∀ t ∈ ts, logic.stageOf? t.slug = some s) (rest : List Task) :
    itemsFrom logic placed (ts ++ rest) = itemsFrom logic placed rest := by
  induction ts with
  | nil => rfl
  | cons t ts ih =>
    rw [List.forall_mem_cons] at hts
    rw [List.cons_append, itemsFrom, hts.1]
    exact (if_pos hs).trans (ih hts.2)

/-- Tasks in the order of some items bring about these items, stage by stage. -/
theorem itemsFrom_recovered (hc : logic.Consistent) (hr : (logic.recovered config).Consistent)
    {placed : List Text} {is : List Item} (his : ∀ item ∈ is, item ∈ items logic)
    (hnd : ((is.filterMap Item.stage?).map (·.slug)).Nodup)
    (hnew : ∀ s ∈ is.filterMap Item.stage?, s.slug ∉ placed) :
    itemsFrom (logic.recovered config) placed
        ((is.flatMap (Item.tasks logic)).map (·.recovered config)) =
      is.map (Item.recovered config) := by
  induction is generalizing placed with
  | nil => rfl
  | cons item is ih =>
    obtain ⟨hitem, hrest⟩ := List.forall_mem_cons.1 his
    have hstage : ∀ t ∈ item.tasks logic,
        (logic.recovered config).stageOf? (t.recovered config).slug = item.stage? := fun t ht =>
      (stageOf?_recovered hc hr t.slug).trans (stageOf?_of_mem_tasks hc hitem ht)
    rw [List.flatMap_cons, List.map_append, List.map_cons]
    cases item with
    | task t =>
      have hnone : (logic.recovered config).stageOf? (t.recovered config).slug = none :=
        hstage t (List.mem_singleton_self t)
      rw [List.filterMap_cons_none rfl] at hnd hnew
      rw [Item.tasks, List.map_singleton, List.singleton_append, itemsFrom, hnone]
      exact congrArg _ (ih hrest hnd hnew)
    | stage s =>
      have hcons : (Item.stage s :: is).filterMap Item.stage? = s :: is.filterMap Item.stage? := rfl
      rw [hcons, List.map_cons, List.nodup_cons] at hnd
      rw [hcons, List.forall_mem_cons] at hnew
      have hlater : ∀ s' ∈ is.filterMap Item.stage?, s'.slug ∉ s.slug :: placed := by
        intro s' hs' hmem
        rcases List.mem_cons.1 hmem with heq | hmem
        · exact hnd.1 (List.mem_map.2 ⟨s', hs', heq⟩)
        · exact hnew.2 s' hs' hmem
      -- the first task of the stage places it, and the others find it placed
      cases htasks : (Item.stage s).tasks logic with
      | nil =>
        have hslugs := map_slug_tasks hc ((mem_items_stage hc).1 hitem)
        rw [htasks] at hslugs
        exact absurd hslugs.symm (hc.stage s ((mem_items_stage hc).1 hitem)).members_ne_nil
      | cons t ts =>
        rw [htasks, List.forall_mem_cons] at hstage
        have hskip : ∀ rest, itemsFrom (logic.recovered config) (s.slug :: placed)
            (ts.map (·.recovered config) ++ rest) =
              itemsFrom (logic.recovered config) (s.slug :: placed) rest :=
          itemsFrom_append List.mem_cons_self (List.forall_mem_map.2 hstage.2)
        rw [List.map_cons, List.cons_append, itemsFrom, hstage.1]
        refine (if_neg hnew.1).trans (congrArg _ ?_)
        rw [hskip]
        exact ih hrest hnd.2 hlater

/-- The diagram of what came back holds what came back of the first diagram. -/
theorem items_recovered (hc : logic.Consistent) (hr : (logic.recovered config).Consistent) :
    items (logic.recovered config) = (items logic).map (Item.recovered config) :=
  itemsFrom_recovered hc hr (fun _ h => h)
    (((perm_stagesInDiagramOrder hc).map _).nodup_iff.2 hc.nodup_stages)
    fun _ _ => List.not_mem_nil

theorem inDiagramOrder_recovered (hc : logic.Consistent)
    (hr : (logic.recovered config).Consistent) :
    (logic.recovered config).inDiagramOrder = (logic.recovered config).tasks := by
  have htasks : (logic.recovered config).tasks =
      logic.inDiagramOrder.map (·.recovered config) := rfl
  rw [htasks, inDiagramOrder, items_recovered hc hr, List.flatMap_map, inDiagramOrder,
    List.map_flatMap]
  exact List.flatMap_congr fun item _ => tasks_recovered hc hr item

theorem stagesInDiagramOrder_recovered (hc : logic.Consistent)
    (hr : (logic.recovered config).Consistent) :
    (logic.recovered config).stagesInDiagramOrder = (logic.recovered config).stages := by
  rw [stagesInDiagramOrder, items_recovered hc hr, List.filterMap_map]
  exact List.filterMap_congr fun item _ => stage?_recovered item

/-- A description that came back comes back unchanged. -/
theorem recovered_recovered (hc : logic.Consistent) (hr : (logic.recovered config).Consistent) :
    (logic.recovered config).recovered config = logic.recovered config := by
  have htasks : (logic.recovered config).tasks.map (·.recovered config) =
      (logic.recovered config).tasks := by
    rw [recovered, List.map_map]
    exact List.map_congr_left fun t _ => t.recovered_recovered config
  have hslugs : (logic.recovered config).tasks.map (·.slug) =
      logic.inDiagramOrder.map (·.slug) := slugs_recovered config logic
  rw [recovered, inDiagramOrder_recovered hc hr, stagesInDiagramOrder_recovered hc hr, htasks,
    hslugs]
  rfl

/-! ## Identifiers -/

/-- The identifiers of what came back are those of the first description. -/
theorem perm_listed_recovered (hc : logic.Consistent) (hr : (logic.recovered config).Consistent)
    (case : Case) :
    (Identifier.listed (logic.recovered config) case).Perm (Identifier.listed logic case) := by
  have htasks : (logic.recovered config).tasks =
      logic.inDiagramOrder.map (·.recovered config) := rfl
  unfold Identifier.listed
  simp only [stageOf?_recovered hc hr]
  refine List.Perm.append (List.Perm.append_left _ ?_) ?_
  · exact (perm_stagesInDiagramOrder hc).flatMap_right _
  · rw [htasks, List.flatMap_map]
    exact (perm_inDiagramOrder hc).flatMap_right _

theorem check_recovered (hc : logic.Consistent) (hr : (logic.recovered config).Consistent)
    {case : Case} (h : Identifier.check logic case = .ok ()) :
    Identifier.check (logic.recovered config) case = .ok () := by
  rw [Identifier.check_eq_ok_iff] at h ⊢
  exact ((perm_listed_recovered hc hr case).map _).nodup_iff.2 h

end Logic

/-! ## Compiled documents -/

section

variable {c : Context Rat} {t : Xml.Node Text}

/-- The description that comes out of a document. -/
theorem extract_render (hs : c.Sound) (ht : tree c = .ok t) (hne : c.case.name ≠ []) :
    extract (render c.config.prettyPrint t) = .ok (c.logic.recovered c.config) := by
  have hinspect := inspect_render hs ht c.config.prettyPrint
  rw [inspectRoot_seenRoot hs hne] at hinspect
  rw [extract, hinspect]
  exact Report.toLogic_eq hs.logic (fun _ htask => isXmlText_assignee hs ht htask) rfl rfl

end

theorem Case.name_ne_nil {name : Json} {application : Except CompileError Application} {case : Case}
    (h : Case.make name application = .ok case) : case.name ≠ [] := by
  obtain ⟨-, -, hname⟩ := Case.make_eq_ok_iff.1 h
  intro hnil
  rw [hnil] at hname
  exact absurd hname Bool.false_ne_true

/-- What comes out of a compiled document can be compiled for the same case, and comes out of that
document again. -/
theorem extract_recompile {config : Config} {name raw : Json}
    {application : Except CompileError Application} {compiled : Compiled}
    (h : compile config (Case.make name application) (Logic.parse raw) = .ok compiled) :
    ∃ (logic : Logic) (again : Compiled), extract compiled.document = .ok logic ∧
      compile config (Case.make name application) (.ok logic) = .ok again ∧
      extract again.document = .ok logic := by
  obtain ⟨case, logic, c, t, hcase, hlogic, hprepare, -, ht, rfl⟩ := compile_eq_ok_iff.1 h
  have hc := consistent_of_parse hlogic
  have hne := Case.name_ne_nil hcase
  obtain ⟨hs, rfl, rfl, rfl⟩ := sound_of_prepare hc hprepare
  have hassignee : ∀ task ∈ c.logic.tasks,
      (textOr task.assignee c.config.assignee).isXmlText = true := fun _ htask =>
    isXmlText_assignee hs ht htask
  have hr := Logic.consistent_recovered hc hassignee
  -- the second case is prepared like the first one
  obtain ⟨c', hprepare', -, -⟩ := exists_prepare c.config hr
    (Logic.check_recovered hc hr (Identifier.check_eq_ok_iff.2 hs.ids))
  obtain ⟨hs', hlogic', hcase', hconfig'⟩ := sound_of_prepare hr hprepare'
  obtain ⟨hname, happlication⟩ := isCarried_of_tree ht
  have hassignee' : ∀ task ∈ c'.logic.tasks,
      (textOr task.assignee c'.config.assignee).isXmlText = true := by
    rw [hlogic', hconfig']
    intro task htask
    obtain ⟨u, hu, rfl⟩ := (Logic.mem_tasks_recovered hc).1 htask
    rw [Task.recovered, textOr_filled, textOr_textOr]
    exact hassignee u hu
  have hcarriable : c'.Carriable := ⟨hs', hcase' ▸ hname, hcase' ▸ happlication, hassignee'⟩
  obtain ⟨t', ht'⟩ := hcarriable.exists_tree
  have happrover : c'.logic.unknownApprover? = none := by
    rw [hlogic']
    exact hr.unknownApprover?_eq_none
  refine ⟨_, _, extract_render hs ht hne, compile_eq_ok_iff.2
    ⟨c.case, _, c', t', hcase, rfl, hprepare', happrover, ht', rfl⟩, ?_⟩
  have hextract := extract_render hs' ht' (hcase' ▸ hne)
  rw [hlogic', hconfig', Logic.recovered_recovered hc hr] at hextract
  rw [hconfig']
  exact hextract

/-- The sample comes back from its document and from the document of what came back. -/
theorem extract_recompile_sample : ∃ (compiled again : Compiled) (logic : Logic),
    compile {} (Case.make (.str "review") (.ok { identifier := "app" }))
        (Logic.parse Logic.sampleValue) = .ok compiled ∧
      extract compiled.document = .ok logic ∧
      compile {} (Case.make (.str "review") (.ok { identifier := "app" })) (.ok logic) =
        .ok again ∧
      extract again.document = .ok logic := by
  obtain ⟨compiled, hcompile⟩ := compile_sample
  obtain ⟨logic, again, hfirst, hagain, hsecond⟩ := extract_recompile hcompile
  exact ⟨compiled, again, logic, hcompile, hfirst, hagain, hsecond⟩

end CasePlan
