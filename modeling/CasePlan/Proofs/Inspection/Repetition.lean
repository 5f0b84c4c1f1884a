import CasePlan.Proofs.Document.Texts
import CasePlan.Proofs.Inspection.Gates
import CasePlan.Proofs.Logic.Repetition

/-!
# Repetition rules in documents

A plan item may repeat if it holds a repetition rule, which bounds its counter.  The plan items of
tasks that may be done again hold one rule each; no other plan item holds any.

Where a retry pattern names a task twice, the last places decide whether it opens the task again.
Read by first places the rules are as they should be exactly if the same tasks may be done again,
and so they are if no retry pattern names a task twice.

* `MayRepeat`: a task may be done again, by the given places in retry patterns.
* `Repeats`: the plan items of a document hold rules accordingly; `Repeats.iff`: by other places.
* `select_repetitionRule_planItem`, `repeats_iff`: the rule of a plan item, and which ones have one.
* `repeats_tree`: the document of a context, by last places.
* `compile_repeats`: compiled documents; `compile_repeats_revisited`: a task that is opened again by
  first places and has no rule.
-/

namespace CasePlan

namespace Document

open Inspection Xml Xml.Node

variable {α : Type}

/-! ## Rules that should be there -/

/-- A task may be done again: it declares so, it has a sentry for its own completion, or a retry
pattern opens it again, by the given places. -/
def MayRepeat (c : Context α) (At : Pattern → Text → Nat → Prop) (task : Task) : Prop :=
  (∃ limit, task.repetitionLimit = some limit ∧ 1 < limit) ∨
    (∃ s ∈ (Table.get? task.slug c.sentries).getD [], s.kind = .selfLoop) ∨
    c.logic.Reopens At task.slug

/-- A rule that lets a plan item repeat while its counter is below a limit. -/
def boundedRule (limit : Int) : Xml.Node Text :=
  .element "repetitionRule" [("flowable:counterVariable", Expression.repetitionCounter)]
    [.element "extensionElements" [] [],
      .element "condition" [] [.cdata (Expression.repetition limit)]]

/-- The plan items in a tree that refer to a definition. -/
def itemsOn (t : Xml.Node Text) (id : Text) : List (Xml.Node Text) :=
  (t.select "planItem").filter fun item => item.attribute? "definitionRef" = some id

/-- The plan items in the tree of a document hold the rules that they should hold, if retry patterns
are read by the given places. -/
structure Repeats (c : Context α) (t : Xml.Node Text) (At : Pattern → Text → Nat → Prop) :
    Prop where
  /-- Every task has one plan item, and it holds one rule exactly if the task may be done again; the
  limit is the one that the task declares, or else the general one. -/
  task : ∀ task ∈ c.logic.tasks, ∃ item, itemsOn t (taskId c.case c.logic task) = [item] ∧
    (MayRepeat c At task → item.select "repetitionRule" =
      [boundedRule (task.repetitionLimit.getD c.config.repetitionLimit)]) ∧
    (¬MayRepeat c At task → item.select "repetitionRule" = [])
  /-- The other plan items hold no rules. -/
  other : ∀ item ∈ t.select "planItem", item.select "repetitionRule" ≠ [] →
    ∃ task ∈ c.logic.tasks, item ∈ itemsOn t (taskId c.case c.logic task)
  /-- Outside plan items there are no rules. -/
  inside : t.select "repetitionRule" = (t.select "planItem").flatMap (select "repetitionRule")

variable {c : Context α} {n : Node α} {t : Xml.Node Text} {At At' : Pattern → Text → Nat → Prop}

/-- Documents that are right by some places are right by others exactly if the same tasks may be
done again. -/
theorem Repeats.iff (h : Repeats c t At) :
    Repeats c t At' ↔ ∀ task ∈ c.logic.tasks, (MayRepeat c At' task ↔ MayRepeat c At task) := by
  constructor
  · intro h' task htask
    obtain ⟨item, hitem, hrule, hnone⟩ := h.task task htask
    obtain ⟨item', hitem', hrule', hnone'⟩ := h'.task task htask
    obtain rfl := List.singleton_inj.1 (hitem.symm.trans hitem')
    -- the plan item cannot hold a rule and none
    constructor
    · intro hmay'
      by_contra hmay
      exact absurd ((hrule' hmay').symm.trans (hnone hmay)) (List.cons_ne_nil _ _)
    · intro hmay
      by_contra hmay'
      exact absurd ((hrule hmay).symm.trans (hnone' hmay')) (List.cons_ne_nil _ _)
  · intro hiff
    refine ⟨fun task htask => ?_, h.other, h.inside⟩
    simpa only [hiff task htask] using h.task task htask

/-! ## Rules that are there -/

/-- The only rules in a plan item are its own. -/
theorem select_repetitionRule_planItem (c : Context α) (n : Node α) :
    (planItem c n).select "repetitionRule" =
      if repeats c n then (repetitionRule c n.slug).select "repetitionRule" else [] := by
  have hcriterion : ∀ s : Sentry α, (criterion s).select "repetitionRule" = [] := by
    intro s
    rw [criterion, element, select_element, if_neg (by simp)]
    rfl
  have hcriteria : ((c.sentriesOf n).map criterion).flatMap (select "repetitionRule") = [] :=
    List.flatMap_eq_nil_iff.2 (List.forall_mem_map.2 fun s _ => hcriterion s)
  have hitem : (planItem c n).select "repetitionRule" =
      (if repeats c n then [repetitionRule c n.slug] else []).flatMap (select "repetitionRule") ++
        ((c.sentriesOf n).map criterion).flatMap (select "repetitionRule") := by
    rw [planItem, select_element, if_neg (by simp), List.nil_append, List.flatMap_append]
    rfl
  rw [hitem, hcriteria, List.append_nil]
  split
  · exact List.flatMap_singleton ..
  · rfl

/-- The rule in the making for a task bounds its repetitions. -/
theorem select_repetitionRule {slug : Text} {task : Task} (htask : c.logic.task? slug = some task)
    (hlimit : ∀ limit ∈ task.repetitionLimit, 1 ≤ limit) :
    ((repetitionRule c slug).select "repetitionRule").map (Node.map known) =
      [boundedRule (task.repetitionLimit.getD c.config.repetitionLimit)] := by
  have hbound : (if task.repetitionLimit.getD 0 = 0 then c.config.repetitionLimit
      else task.repetitionLimit.getD 0) = task.repetitionLimit.getD c.config.repetitionLimit := by
    cases h : task.repetitionLimit with
    | none => rfl
    | some limit =>
      have hpos := hlimit limit h
      exact if_neg (by simp only [Option.getD_some]; omega)
  rw [← hbound, repetitionRule, htask, element, select_element, if_neg (by simp)]
  rfl

variable [Coordinate α]

/-- By last places the tasks that may be done again are those that are listed. -/
theorem mayRepeat_lastAt_iff (hs : c.Sound) {task : Task} (htask : task ∈ c.logic.tasks) :
    MayRepeat c Pattern.LastAt task ↔ task.slug ∈ c.logic.repeatable := by
  have hdeclares : (∃ t ∈ c.logic.tasks, t.slug = task.slug ∧
      ∃ limit, t.repetitionLimit = some limit ∧ 1 < limit) ↔
        ∃ limit, task.repetitionLimit = some limit ∧ 1 < limit := by
    constructor
    · rintro ⟨t, ht, hslug, hlimit⟩
      rwa [← List.inj_on_of_nodup_map hs.logic.nodup_slugs ht htask hslug]
    · exact fun hlimit => ⟨task, htask, rfl, hlimit⟩
  obtain ⟨n, hn, hshows⟩ := hs.diagram.exists_showsTask hs.logic htask
  have hloops := (hs.guardedBy hn).selfLoop_iff
  rw [Context.sentriesOf, hshows.slug] at hloops
  rw [Logic.mem_repeatable_iff, hdeclares, MayRepeat, hloops, or_comm (a := Logic.Reopens ..)]

/-- The plan item of a task repeats if the task may be done again. -/
theorem repeats_iff (hs : c.Sound) {task : Task} (htask : task ∈ c.logic.tasks)
    (hshows : n.ShowsTask c.logic task) :
    repeats c n = true ↔ MayRepeat c Pattern.LastAt task := by
  rw [mayRepeat_lastAt_iff hs htask, repeats, hshows.kind, hshows.slug, c.repeatable_eq,
    Bool.and_eq_true, decide_eq_true_eq, decide_eq_true_eq]
  exact and_iff_right rfl

/-- The only plan item that refers to the definition of a node is its own. -/
theorem itemsOn_definitionId (hs : c.Sound) (ht : tree c = .ok t) (hn : n ∈ c.diagram.inOrder) :
    itemsOn t (c.definitionId n) = [(planItem c n).map known] := by
  have hkeys : (t.select "planItem").map (attribute? "definitionRef") =
      (c.case.mainStageId :: c.diagram.inOrder.map c.definitionId).map some := by
    rw [select_planItem_tree hs ht, List.map_cons, List.map_cons, List.map_map, List.map_map]
    rfl
  have hnodup : ((t.select "planItem").map (attribute? "definitionRef")).Nodup := by
    rw [hkeys]
    exact (nodup_definitionRefs hs).map (Option.some_injective _)
  have hmem : (planItem c n).map known ∈ t.select "planItem" := by
    rw [select_planItem_tree hs ht]
    exact List.mem_cons_of_mem _ (List.mem_map_of_mem hn)
  exact filter_eq_singleton hnodup hmem

omit [Coordinate α] in
/-- What the plan item of a task refers to. -/
theorem definitionId_eq_taskId {task : Task} (hshows : n.ShowsTask c.logic task) :
    c.definitionId n = taskId c.case c.logic task := by
  rw [Context.definitionId, hshows.kind, Context.scope, hshows.parent, hshows.slug]
  rfl

/-- The plan items of a document hold the rules that they should hold by last places. -/
theorem repeats_tree (hs : c.Sound) (ht : tree c = .ok t) : Repeats c t Pattern.LastAt where
  task task htask := by
    obtain ⟨n, hn, hshows⟩ := hs.diagram.exists_showsTask hs.logic htask
    refine ⟨(planItem c n).map known,
      definitionId_eq_taskId hshows ▸ itemsOn_definitionId hs ht hn, fun hmay => ?_, fun hmay => ?_⟩
    · rw [select_map, select_repetitionRule_planItem,
        if_pos ((repeats_iff hs htask hshows).2 hmay), hshows.slug]
      exact select_repetitionRule (hs.logic.task?_eq_some htask)
        (hs.logic.task task htask).repetitionLimit
    · rw [select_map, select_repetitionRule_planItem,
        if_neg (mt (repeats_iff hs htask hshows).1 hmay)]
      rfl
  other item hitem hrules := by
    rw [select_planItem_tree hs ht, List.mem_cons] at hitem
    rcases hitem with rfl | hitem
    · exact absurd rfl hrules
    · obtain ⟨n, hn, rfl⟩ := List.mem_map.1 hitem
      have hrepeats : repeats c n = true := by
        by_contra hnot
        refine hrules ?_
        rw [select_map, select_repetitionRule_planItem, if_neg hnot]
        rfl
      rcases hs.diagram.shows_of_mem hs.logic hn with ⟨s, -, h⟩ | ⟨task, htask, h⟩
      · rw [repeats, h.kind] at hrepeats
        exact absurd hrepeats (by simp)
      · refine ⟨task, htask, ?_⟩
        rw [← definitionId_eq_taskId h, itemsOn_definitionId hs ht hn]
        exact List.mem_singleton_self _
  inside := by
    rw [select_planItem_tree hs ht, select_tree ht,
      select_root_eq_caseElement hs.toRouted (by simp),
      select_of_items hs.toRouted (by simp) (by simp), List.flatMap_cons, List.flatMap_map,
      List.map_append, List.map_flatMap]
    simp only [select_map]

end Document

open Document

/-- In a compiled document the plan item of a task holds one rule, with the limit of the task or the
general one, if the task may be done again by last places in retry patterns, and otherwise none; no
other plan item holds any.  By first places this is right exactly if these allow the same tasks to
be done again, and so it is if no retry pattern names a task twice. -/
theorem compile_repeats {config : Config} {name : Json}
    {application : Except CompileError Application} {raw : Json} {compiled : Compiled}
    (h : compile config (Case.make name application) (Logic.parse raw) = .ok compiled) :
    ∃ case c t, Case.make name application = .ok case ∧ Logic.parse raw = .ok c.logic ∧
      prepare config case c.logic = .ok c ∧ c.config = config ∧ tree c = .ok t ∧
      compiled = ⟨c.logic, c.diagram, c.sentries, render config.prettyPrint t⟩ ∧
      Repeats c t Pattern.LastAt ∧
      (Repeats c t Pattern.FirstAt ↔ ∀ task ∈ c.logic.tasks,
        (MayRepeat c Pattern.FirstAt task ↔ MayRepeat c Pattern.LastAt task)) ∧
      ((∀ p ∈ c.logic.patterns, p.kind = .retry → p.members.Nodup) →
        Repeats c t Pattern.FirstAt) := by
  obtain ⟨case, logic, c, t, hcase, hlogic, hprepare, -, ht, rfl⟩ := compile_eq_ok_iff.1 h
  obtain ⟨hs, rfl, -, rfl⟩ := sound_of_prepare (consistent_of_parse hlogic) hprepare
  have hrepeats := repeats_tree hs ht
  refine ⟨case, c, t, hcase, hlogic, hprepare, rfl, ht, rfl, hrepeats, hrepeats.iff, fun hnd => ?_⟩
  refine hrepeats.iff.2 fun task _ => ?_
  rw [MayRepeat, MayRepeat, Logic.reopens_firstAt_iff hnd]

/-- A task that stands before and after another. -/
def revisitedTask : Task := { slug := "a", displayName := "A", outcomes := ["done"] }

/-- A retry pattern that comes back to its first task after the one that opens it again. -/
def revisited : Logic where
  tasks := [revisitedTask, { slug := "b", displayName := "B", outcomes := ["ok", "redo"] }]
  patterns := [⟨.retry, ["a", "b", "a"], [{ source := "b", target := "a", outcome := "redo" }]⟩]

/-- The value that holds `revisited`. -/
def revisitedValue : Json :=
  .obj [("tasks", .arr
      [.obj [("slug", .str "a"), ("displayName", .str "A"), ("outcomes", .arr [.str "done"])],
        .obj [("slug", .str "b"), ("displayName", .str "B"),
          ("outcomes", .arr [.str "ok", .str "redo"])]]),
    ("patterns", .arr
      [.obj [("type", .str "retry"), ("tasks", .arr [.str "a", .str "b", .str "a"]),
        ("conditions", .arr [.obj [("sourceTask", .str "b"), ("targetTask", .str "a"),
          ("outcome", .str "redo")]])]])]

/-- The first task of `revisited` is opened again by first places, and its plan item holds no
rule. -/
theorem compile_repeats_revisited : ∃ compiled,
    compile { prettyPrint := false } (Case.make (.str "review") (.ok { identifier := "app" }))
        (Logic.parse revisitedValue) = .ok compiled ∧
      revisited.Reopens Pattern.FirstAt "a" ∧
      ∃ (c : Context Rat) (t : Xml.Node Text), c.logic = revisited ∧
        compiled.document = render false t ∧ ¬Repeats c t Pattern.FirstAt ∧
        ∃ item, itemsOn t "reviewa" = [item] ∧ item.select "repetitionRule" = [] := by
  have hmake : Case.make (.str "review") (.ok { identifier := "app" }) =
      .ok ⟨"review", { identifier := "app" }⟩ := by rfl
  have hparse : Logic.parse revisitedValue = .ok revisited := by rfl
  have hopens : revisited.Reopens Pattern.FirstAt "a" := by
    refine ⟨_, List.mem_cons_self, rfl, _, List.mem_cons_self, rfl, 0, 1,
      ⟨rfl, fun _ _ => Nat.zero_le _⟩, ⟨rfl, fun i hi => ?_⟩, Nat.zero_le 1⟩
    -- the second task does not stand at the first place
    refine Nat.one_le_iff_ne_zero.2 ?_
    rintro rfl
    exact absurd hi (by decide)
  obtain ⟨compiled, hcompile⟩ :=
    exists_compile_of_carried { prettyPrint := false } hmake hparse (by rfl) (by decide)
      ⟨by decide, by decide⟩ (by decide)
  obtain ⟨case, c, t, hcase, hlogic, hprepare, -, ht, rfl, hrepeats, hiff, -⟩ :=
    compile_repeats hcompile
  obtain rfl := Except.ok.inj (hmake.symm.trans hcase)
  have hsame := Except.ok.inj (hparse.symm.trans hlogic)
  obtain ⟨hs, -, hname, -⟩ := sound_of_prepare (consistent_of_parse hlogic) hprepare
  have htask : revisitedTask ∈ c.logic.tasks := by
    rw [← hsame]
    exact List.mem_cons_self
  have hnot : ¬MayRepeat c Pattern.LastAt revisitedTask := by
    rw [mayRepeat_lastAt_iff hs htask, ← hsame]
    decide +kernel
  obtain ⟨item, hitem, -, hnone⟩ := hrepeats.task _ htask
  rw [hname, ← hsame] at hitem
  refine ⟨_, hcompile, hopens, c, t, hsame.symm, rfl, fun hfirst => ?_, item, hitem, hnone hnot⟩
  exact hnot ((hiff.1 hfirst _ htask).1 (.inr (.inr (hsame ▸ hopens))))

end CasePlan
