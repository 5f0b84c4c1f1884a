import CasePlan.Proofs.Document.Pieces

/-!
# References in documents

Plan items refer to what defines them, criteria to sentries, sentries to the plan items that they
wait for, and shapes and edges to what they show.

* `IsClosed`: every reference leads to the element that it should lead to, and the diagram shows all
  plan items, criteria and awaited events.
* `definesItems_root`, `forall₂_criteria`, `forall₂_onParts`: the references in the plan model.
* `forall₂_shapes`, `forall₂_edges`: those of the diagram.
* `compile_isClosed`: compiled documents are closed.
-/

namespace CasePlan

/-! ## References -/

namespace Xml.Node

variable {τ σ : Type}

/-- An attribute has the identifier of another element as its value. -/
def RefersBy (key : Text) (a b : Node τ) : Prop :=
  ∃ id, a.attribute? key = some id ∧ b.attribute? "id" = some id

theorem RefersBy.map (f : τ → σ) {key : Text} {a b : Node τ} (h : a.RefersBy key b) :
    (a.map f).RefersBy key (b.map f) := by
  obtain ⟨id, ha, hb⟩ := h
  exact ⟨f id, by rw [attribute?_map, ha, Option.map_some],
    by rw [attribute?_map, hb, Option.map_some]⟩

/-- What defines the plan items that an element holds stands beside them. -/
def DefinesItems (parent : Node τ) : Prop :=
  ∀ item ∈ parent.childrenNamed "planItem", ∃ definition ∈ parent.children,
    (definition.hasName "humanTask" = true ∨ definition.hasName "stage" = true) ∧
      item.RefersBy "definitionRef" definition

/-- The criteria of the plan items that an element holds refer, in order, to the sentries that it
holds. -/
def GuardsItems (stage : Node τ) : Prop :=
  List.Forall₂ (RefersBy "sentryRef")
    ((stage.childrenNamed "planItem").flatMap (childrenNamed "entryCriterion"))
    (stage.childrenNamed "sentry")

theorem DefinesItems.map (f : τ → σ) {parent : Node τ} (h : parent.DefinesItems) :
    (parent.map f).DefinesItems := by
  intro other hother
  rw [childrenNamed_map] at hother
  obtain ⟨item, hitem, rfl⟩ := List.mem_map.1 hother
  obtain ⟨definition, hmem, hname, hrefers⟩ := h item hitem
  refine ⟨definition.map f, ?_, ?_, hrefers.map f⟩
  · rw [children_map]
    exact List.mem_map_of_mem hmem
  · rwa [hasName_map, hasName_map]

theorem GuardsItems.map (f : τ → σ) {stage : Node τ} (h : stage.GuardsItems) :
    (stage.map f).GuardsItems := by
  have hcriteria : ((stage.map f).childrenNamed "planItem").flatMap
      (childrenNamed "entryCriterion") =
        ((stage.childrenNamed "planItem").flatMap (childrenNamed "entryCriterion")).map
          (Node.map f) := by
    rw [childrenNamed_map, List.flatMap_map, List.map_flatMap]
    exact List.flatMap_congr fun k _ => childrenNamed_map f _ k
  rw [GuardsItems, hcriteria, childrenNamed_map, List.forall₂_map_left_iff,
    List.forall₂_map_right_iff]
  exact h.imp fun _ _ hrefers => hrefers.map f

end Xml.Node

namespace Document

open Xml Xml.Node

variable {α : Type}

/-! ## Stages and their elements -/

/-- The nested stages of some nodes. -/
structure Nests (c : Context α) (members : List (Node α)) (nested : List Piece) : Prop where
  /-- They are stages. -/
  hasName : ∀ k ∈ nested, k.hasName "stage" = true
  /-- They are those of the nodes. -/
  mem : ∀ n ∈ members, n.kind = .stage → nestedStageOf c n ∈ nested

variable {c : Context α} {members : List (Node α)} {nested : List Piece}

theorem hasName_planItem : ∀ k ∈ members.map (planItem c), k.hasName "planItem" = true :=
  List.forall_mem_map.2 fun _ _ => rfl

theorem hasName_sentry : ∀ k ∈ members.flatMap fun n => (c.sentriesOf n).map (sentry c),
    k.hasName "sentry" = true :=
  List.forall_mem_flatMap.2 fun _ _ => List.forall_mem_map.2 fun _ _ => rfl

theorem hasName_humanTask (c : Context α) (n : Node α) :
    (humanTask c n).hasName "humanTask" = true := by
  unfold humanTask
  split <;> rfl

theorem hasName_humanTasks : ∀ k ∈ (members.filter (·.kind = .task)).map (humanTask c),
    k.hasName "humanTask" = true :=
  List.forall_mem_map.2 fun n _ => hasName_humanTask c n

/-- Of what a stage holds the plan items are those of its members. -/
theorem filter_planItem_stageContentWith (h : ∀ k ∈ nested, k.hasName "stage" = true) :
    (stageContentWith c members nested).filter (hasName "planItem") = members.map (planItem c) := by
  have hextensions : (stageExtensions :: members.map (planItem c)).filter (hasName "planItem") =
      members.map (planItem c) := List.filter_eq_self.2 hasName_planItem
  rw [stageContentWith, List.filter_append, List.filter_append, List.filter_append, hextensions,
    filter_hasName_eq_nil (by simp) hasName_sentry, filter_hasName_eq_nil (by simp) h,
    filter_hasName_eq_nil (by simp) hasName_humanTasks]
  simp only [List.append_nil]

/-- Of what a stage holds the sentries are those of its members. -/
theorem filter_sentry_stageContentWith (h : Nests c members nested) :
    (stageContentWith c members nested).filter (hasName "sentry") =
      members.flatMap fun n => (c.sentriesOf n).map (sentry c) := by
  have hitems : (stageExtensions :: members.map (planItem c)).filter (hasName "sentry") = [] :=
    List.filter_eq_nil_iff.2 (List.forall_mem_cons.2 ⟨Bool.false_ne_true,
      List.filter_eq_nil_iff.1 (filter_hasName_eq_nil (by simp) hasName_planItem)⟩)
  rw [stageContentWith, List.filter_append, List.filter_append, List.filter_append, hitems,
    List.filter_eq_self.2 hasName_sentry,
    filter_hasName_eq_nil (by simp) h.hasName,
    filter_hasName_eq_nil (by simp) hasName_humanTasks]
  simp only [List.append_nil, List.nil_append]

/-- The criteria of a plan item. -/
theorem childrenNamed_planItem (c : Context α) (n : Node α) :
    (planItem c n).childrenNamed "entryCriterion" = (c.sentriesOf n).map criterion := by
  have hrule : (if repeats c n then [repetitionRule c n.slug] else []).filter
      (hasName "entryCriterion") = [] := by
    split <;> rfl
  have hcriteria : ∀ k ∈ (c.sentriesOf n).map criterion, k.hasName "entryCriterion" = true :=
    List.forall_mem_map.2 fun _ _ => rfl
  exact (List.filter_append ..).trans
    ((congrArg₂ _ hrule (List.filter_eq_self.2 hcriteria)).trans (List.nil_append _))

/-- In a stage the criteria refer to the sentries. -/
theorem guardsItems_stage (h : Nests c members nested) (attributes : List (Text × Draft)) :
    GuardsItems (.element "stage" attributes (stageContentWith c members nested)) := by
  have hcriteria : ∀ n : Node α, List.Forall₂ (RefersBy "sentryRef")
      ((planItem c n).childrenNamed "entryCriterion") ((c.sentriesOf n).map (sentry c)) := by
    intro n
    rw [childrenNamed_planItem, List.forall₂_map_left_iff, List.forall₂_map_right_iff]
    exact List.forall₂_same.2 fun s _ => ⟨.ok (sentryId s), rfl, rfl⟩
  rw [GuardsItems, childrenNamed, childrenNamed, children, filter_planItem_stageContentWith h.hasName,
    filter_sentry_stageContentWith h, List.flatMap_map]
  exact List.rel_flatMap (List.forall₂_same.2 fun _ _ => rfl) fun n _ hn => hn ▸ hcriteria n

variable [Coordinate α]

theorem nests_main (hs : c.Sound) :
    Nests c c.diagram.nodes (nestedStages c c.diagram.nodes) where
  hasName := by
    rw [nestedStages_eq_flatMap, List.forall_mem_flatMap]
    intro n hn k hk
    rw [nestedStage_eq_nestedStageOf hs.toRouted hn] at hk
    split at hk
    · rw [List.mem_singleton.1 hk]
      rfl
    · exact absurd hk List.not_mem_nil
  mem n hn hkind := by
    rw [nestedStages_eq_flatMap, List.mem_flatMap]
    refine ⟨n, hn, ?_⟩
    rw [nestedStage_eq_nestedStageOf hs.toRouted hn, if_pos hkind]
    exact List.mem_cons_self

theorem nests_nested (hs : c.Sound) {n : Node α} (hn : n ∈ c.diagram.nodes) :
    Nests c n.children [] where
  hasName := List.forall_mem_nil _
  mem m hm hkind := by
    rw [kind_of_mem_children hs.toRouted hn hm] at hkind
    exact absurd hkind (by simp)

/-- In every stage the criteria refer to the sentries. -/
theorem guardsItems_root (hs : c.Sound) : ∀ stage ∈ (root c).select "stage", GuardsItems stage := by
  rw [select_stage_root hs.toRouted, List.forall_mem_cons, List.forall_mem_flatMap]
  refine ⟨guardsItems_stage (nests_main hs) _, fun n hn stage hstage => ?_⟩
  split at hstage
  · rw [List.mem_singleton.1 hstage]
    exact guardsItems_stage (nests_nested hs hn) _
  · exact absurd hstage List.not_mem_nil

/-! ## What defines plan items -/

/-- A task has a human task, which has its identifier. -/
theorem attribute?_humanTask (hs : c.Routed) {n : Node α} (hn : n ∈ c.diagram.inOrder)
    (hk : n.kind = .task) : (humanTask c n).attribute? "id" = some (.ok (c.definitionId n)) := by
  obtain ⟨t, -, ht⟩ := exists_task? hs hn hk
  unfold humanTask
  rw [ht]
  rfl

/-- What stands in a tree with no plan items below the top defines none. -/
theorem definesItems_of_select_eq_nil {e : Piece}
    (h : e.children.flatMap (select "planItem") = []) : ∀ k ∈ e.subtrees, DefinesItems k := by
  intro k hk item hitem
  rw [childrenNamed_eq_nil h hk] at hitem
  exact absurd hitem List.not_mem_nil

/-- In a stage stands what defines the plan items of its members. -/
theorem definesItems_stage (hs : c.Sound) (h : Nests c members nested)
    (hmem : ∀ n ∈ members, n ∈ c.diagram.inOrder) (attributes : List (Text × Draft)) :
    DefinesItems (.element "stage" attributes (stageContentWith c members nested)) := by
  intro item hitem
  rw [childrenNamed, children, filter_planItem_stageContentWith h.hasName] at hitem
  obtain ⟨n, hn, rfl⟩ := List.mem_map.1 hitem
  cases hk : n.kind with
  | stage =>
    refine ⟨nestedStageOf c n, ?_, .inr rfl, .ok (c.definitionId n), rfl, ?_⟩
    · exact List.mem_append_left _ (List.mem_append_right _ (h.mem n hn hk))
    · rw [Context.definitionId, hk]
      rfl
  | task =>
    refine ⟨humanTask c n, ?_, .inl (hasName_humanTask c n), .ok (c.definitionId n), rfl,
      attribute?_humanTask hs.toRouted (hmem n hn) hk⟩
    refine List.mem_append_right _ (List.mem_map_of_mem (List.mem_filter.2 ⟨hn, ?_⟩))
    exact decide_eq_true hk

omit [Coordinate α] in
/-- The pieces of a stage define nothing, except for the nested stages. -/
theorem definesItems_stageContentWith (members : List (Node α))
    (hnested : ∀ k ∈ nested, ∀ e ∈ k.subtrees, DefinesItems e) :
    ∀ k ∈ stageContentWith c members nested, ∀ e ∈ k.subtrees, DefinesItems e := by
  have hitem : ∀ n : Node α, (planItem c n).children.flatMap (select "planItem") = [] := fun n =>
    List.flatMap_eq_nil_iff.2 fun k hk => (uses_planItem c n k hk).select_eq_nil (by simp)
  have hsentry : ∀ s : Sentry α, (sentry c s).children.flatMap (select "planItem") = [] := fun s =>
    List.flatMap_eq_nil_iff.2 fun k hk => (uses_sentry c s k hk).select_eq_nil (by simp)
  have htask : ∀ n : Node α, (humanTask c n).children.flatMap (select "planItem") = [] := fun n =>
    flatMap_select_children ((uses_humanTask c n).select_eq_nil (by simp))
  have hextensions : stageExtensions.children.flatMap (select "planItem") = [] :=
    flatMap_select_children (uses_stageExtensions.select_eq_nil (by simp))
  unfold stageContentWith
  simp only [List.forall_mem_append, List.forall_mem_cons, List.forall_mem_map,
    List.forall_mem_flatMap]
  exact ⟨⟨⟨⟨definesItems_of_select_eq_nil hextensions,
    fun n _ => definesItems_of_select_eq_nil (hitem n)⟩,
    fun _ _ s _ => definesItems_of_select_eq_nil (hsentry s)⟩, hnested⟩,
    fun n _ => definesItems_of_select_eq_nil (htask n)⟩

/-- Every plan item of a document stands beside what defines it. -/
theorem definesItems_root (hs : c.Sound) : ∀ parent ∈ (root c).subtrees, DefinesItems parent := by
  have hstages : ∀ k ∈ nestedStages c c.diagram.nodes, ∀ e ∈ k.subtrees, DefinesItems e := by
    rw [nestedStages_eq_flatMap, List.forall_mem_flatMap]
    intro n hn k hk
    rw [nestedStage_eq_nestedStageOf hs.toRouted hn] at hk
    split at hk
    · rw [List.mem_singleton.1 hk, nestedStageOf, element, forall_mem_subtrees_element]
      exact ⟨definesItems_stage hs (nests_nested hs hn)
          (fun m hm => Diagram.mem_inOrder.2 (.inr ⟨n, hn, hm⟩)) _,
        definesItems_stageContentWith _ (List.forall_mem_nil _)⟩
    · exact absurd hk List.not_mem_nil
  have hmain : ∀ e ∈ (mainStage c).subtrees, DefinesItems e := by
    rw [mainStage, element, stageContent, forall_mem_subtrees_element]
    exact ⟨definesItems_stage hs (nests_main hs) (fun n hn => Diagram.mem_inOrder.2 (.inl hn)) _,
      definesItems_stageContentWith _ hstages⟩
  have hitem : ∀ e ∈ (mainItem c).subtrees, DefinesItems e := definesItems_of_select_eq_nil rfl
  have hdiagram : ∀ e ∈ (diagramElement c).subtrees, DefinesItems e :=
    definesItems_of_select_eq_nil
      (flatMap_select_children (select_diagramElement_eq_nil hs.toRouted (by simp)))
  have hmodel : ∀ e ∈ (planModel c).subtrees, DefinesItems e := by
    refine forall_mem_subtrees_element.2 ⟨?_, List.forall_mem_cons.2
      ⟨hitem, List.forall_mem_singleton.2 hmain⟩⟩
    -- beside the main plan item stands the main stage
    intro item hitem
    obtain rfl := List.mem_singleton.1 hitem
    exact ⟨mainStage c, List.mem_cons_of_mem _ List.mem_cons_self, .inr rfl,
      .ok c.case.mainStageId, rfl, rfl⟩
  have hcase : ∀ e ∈ (caseElement c).subtrees, DefinesItems e :=
    forall_mem_subtrees_element.2 ⟨fun item h => absurd h List.not_mem_nil,
      List.forall_mem_singleton.2 hmodel⟩
  exact forall_mem_subtrees_element.2 ⟨fun item h => absurd h List.not_mem_nil,
    List.forall_mem_cons.2 ⟨hcase, List.forall_mem_singleton.2 hdiagram⟩⟩

/-! ## What sentries wait for -/

/-- Where an edge of a sentry leaves: a node that is to be completed or that holds the sentry's
node, or else the main stage. -/
def Leaves (d : Diagram α) (s : Sentry α) (e : Edge α) : Option (Node α) → Prop
  | none => e.event = .start ∧ e.source = rootContainer ∧ ∃ n ∈ d.nodes, n.slug = s.owner
  | some n => e.source = n.slug ∧
      (e.event = .complete ∧ n ∈ d.inOrder ∨
        e.event = .start ∧ n ∈ d.nodes ∧ ∃ m ∈ n.children, m.slug = s.owner)

omit [Coordinate α] in
theorem Leaves.mem_inOrder {d : Diagram α} {s : Sentry α} {e : Edge α} {n : Node α}
    (h : Leaves d s e (some n)) : n ∈ d.inOrder := by
  rcases h.2 with ⟨-, hn⟩ | ⟨-, hn, -⟩
  · exact hn
  · exact Diagram.mem_inOrder.2 (.inl hn)

/-- Every edge leaves a node or the main stage. -/
theorem exists_leaves (hs : c.Sound) {n : Node α} (hn : n ∈ c.diagram.inOrder) {s : Sentry α}
    (h : s ∈ c.sentriesOf n) {e : Edge α} (he : e ∈ s.edges) : ∃ n?, Leaves c.diagram s e n? := by
  have hguard := hs.guardedBy hn
  have hcompleted : ∀ sources : List Text,
      s.edges.map (fun e => (e.source, e.event)) =
        sources.map (fun slug => (slug, Event.complete)) →
      (∀ slug ∈ sources, ∃ m ∈ c.diagram.inOrder, m.slug = slug) →
      ∃ n?, Leaves c.diagram s e n? := by
    intro sources hedges hnodes
    have hmem := List.mem_map_of_mem (f := fun e => (e.source, e.event)) he
    rw [hedges] at hmem
    obtain ⟨slug, hslug, hpair⟩ := List.mem_map.1 hmem
    obtain ⟨m, hm, rfl⟩ := hnodes slug hslug
    exact ⟨some m, (congrArg Prod.fst hpair).symm, .inl ⟨(congrArg Prod.snd hpair).symm, hm⟩⟩
  cases hk : s.kind with
  | start =>
    obtain ⟨-, e', hedges, hsource, hevent⟩ := hguard.start s h hk
    rw [hedges, List.mem_singleton] at he
    subst he
    rcases Diagram.mem_inOrder.1 hn with hn | ⟨m, hm, hn⟩
    · rw [hs.diagram.parent_eq_none hn] at hsource
      exact ⟨none, hevent, hsource, n, hn, (hguard.owner s h).symm⟩
    · obtain ⟨member, hshows⟩ := hs.diagram.showsMember hm hn
      rw [hshows.parent] at hsource
      exact ⟨some m, hsource, .inr ⟨hevent, hm, n, hn, (hguard.owner s h).symm⟩⟩
  | transition =>
    refine hcompleted _ (hguard.transition s h hk).1 fun slug hslug => ?_
    rw [List.mem_eraseDups, List.mem_map] at hslug
    obtain ⟨t, ht, rfl⟩ := hslug
    obtain ⟨m, hm, hslug, -⟩ := hs.diagram.find?_task hs.logic
      (hs.logic.ends_mem_slugs (Logic.mem_external.1 ht).1).1
    exact ⟨m, c.diagram.perm_inOrder.mem_iff.2 hm, hslug⟩
  | selfLoop =>
    exact hcompleted [n.slug] (hguard.selfLoop s h hk).1
      (List.forall_mem_singleton.2 ⟨n, hn, rfl⟩)

omit [Coordinate α] in
theorem childrenNamed_sentry (c : Context α) (s : Sentry α) :
    (sentry c s).childrenNamed "planItemOnPart" = onParts c s := by
  have hparts : ∀ k ∈ onParts c s, k.hasName "planItemOnPart" = true :=
    List.forall_mem_map.2 fun _ _ => rfl
  rw [sentry_eq, element, childrenNamed, children, List.filter_append, List.filter_eq_self.2 hparts]
  exact List.append_nil _

/-! ## Closed documents -/

/-- A plan item has the name of a node and refers to what defines it; or it is that of the main
stage. -/
def Context.IsItemOf (c : Context α) : Option (Node α) → Xml.Node Text → Prop
  | none, item => item.attribute? "name" = some c.case.mainItem ∧
      item.attribute? "definitionRef" = some c.case.mainStageId
  | some n, item => item.attribute? "name" = some n.name ∧
      item.attribute? "definitionRef" = some (c.definitionId n)

/-- The plan items of a document, with the nodes that they stand for; the first stands for the main
stage. -/
def itemsOf (d : Diagram α) (t : Xml.Node Text) : List (Option (Node α) × Xml.Node Text) :=
  (none :: d.inOrder.map some).zip (t.select "planItem")

/-- What the sentries of a document wait for, with the sentries. -/
def awaited {τ : Type} (t : Xml.Node τ) : List (Xml.Node τ × Xml.Node τ) :=
  (t.select "sentry").flatMap fun s => (s.childrenNamed "planItemOnPart").map (s, ·)

/-- An edge of the diagram shows what a sentry waits for: it refers to the same plan item, and to
the only criterion that refers to the sentry. -/
def Shows (t edge : Xml.Node Text) (x : Xml.Node Text × Xml.Node Text) : Prop :=
  edge.attribute? "cmmnElementRef" = x.2.attribute? "sourceRef" ∧
    ∃ criterion ∈ t.select "entryCriterion", criterion.RefersBy "sentryRef" x.1 ∧
      (∀ other ∈ t.select "entryCriterion", other.RefersBy "sentryRef" x.1 → other = criterion) ∧
      edge.RefersBy "targetCMMNElementRef" criterion

/-- Every reference in the tree of a document leads to the element that it should lead to, and the
diagram shows the plan model. -/
structure IsClosed (c : Context α) (t : Xml.Node Text) : Prop where
  /-- Every plan item stands beside what defines it. -/
  definitions : ∀ parent ∈ t.subtrees, parent.DefinesItems
  /-- In every stage the criteria of the plan items refer to the sentries, in order. -/
  criteria : ∀ stage ∈ t.select "stage", stage.GuardsItems
  /-- The plan items are that of the main stage and those of the nodes, in order. -/
  items : List.Forall₂ c.IsItemOf (none :: c.diagram.inOrder.map some) (t.select "planItem")
  /-- The sentries are those of the nodes, in order. -/
  sentries : (t.select "sentry").map (attribute? "id") =
    (c.sentries.flatMap Prod.snd).map fun s => some (sentryId s)
  /-- They wait for the plan items that their edges leave, edge by edge. -/
  onParts : List.Forall₂
    (fun s sentry => List.Forall₂
      (fun e part => ∃ x ∈ itemsOf c.diagram t,
        Leaves c.diagram s e x.1 ∧ part.RefersBy "sourceRef" x.2)
      s.edges (sentry.childrenNamed "planItemOnPart"))
    (c.sentries.flatMap Prod.snd) (t.select "sentry")
  /-- Nothing is waited for outside sentries. -/
  awaited : t.select "planItemOnPart" = (awaited t).map Prod.snd
  /-- The shapes refer to the plan model, and to every plan item and criterion once. -/
  shapes : ∃ model targets, t.select "casePlanModel" = [model] ∧
    targets.Perm (model :: (t.select "planItem" ++ t.select "entryCriterion")) ∧
    List.Forall₂ (RefersBy "cmmnElementRef") (t.select "cmmndi:CMMNShape") targets
  /-- The edges show what sentries wait for, one after the other. -/
  edges : List.Forall₂ (Shows t) (t.select "cmmndi:CMMNEdge") (Document.awaited t)

/-- The sentries of all nodes are all sentries. -/
theorem allSentries_eq (hs : c.Sound) : c.allSentries = c.sentries.flatMap Prod.snd := by
  rw [Context.allSentries, List.flatMap_def, hs.map_sentriesOf, List.flatMap_def]

variable {t : Xml.Node Text}

theorem select_tree (ht : tree c = .ok t) (name : Text) :
    t.select name = ((root c).select name).map (Node.map known) := by
  rw [eq_map_of_tree ht, select_map]

theorem select_planItem_tree (hs : c.Sound) (ht : tree c = .ok t) :
    t.select "planItem" = (mainItem c).map known ::
      c.diagram.inOrder.map fun n => (planItem c n).map known := by
  rw [select_tree ht, select_planItem_root hs.toRouted, List.map_cons, List.map_map]
  rfl

theorem select_sentry_tree (hs : c.Sound) (ht : tree c = .ok t) :
    t.select "sentry" = (c.sentries.flatMap Prod.snd).map fun s => (sentry c s).map known := by
  rw [select_tree ht, select_sentry_root hs.toRouted, allSentries_eq hs, List.map_map]
  rfl

/-- The plan items are those of the nodes. -/
theorem forall₂_items (hs : c.Sound) (ht : tree c = .ok t) :
    List.Forall₂ c.IsItemOf (none :: c.diagram.inOrder.map some) (t.select "planItem") := by
  rw [select_planItem_tree hs ht]
  refine .cons ⟨rfl, rfl⟩ ?_
  rw [List.forall₂_map_left_iff, List.forall₂_map_right_iff]
  exact List.forall₂_same.2 fun n _ => ⟨rfl, rfl⟩

theorem itemsOf_tree (hs : c.Sound) (ht : tree c = .ok t) :
    itemsOf c.diagram t = (none, (mainItem c).map known) ::
      c.diagram.inOrder.map fun n => (some n, (planItem c n).map known) := by
  rw [itemsOf, select_planItem_tree hs ht, List.zip_cons_cons, List.zip_map']

/-- A sentry waits for the plan items that its edges leave. -/
theorem forall₂_onPart (hs : c.Sound) (ht : tree c = .ok t) {s : Sentry α} (h : s ∈ c.allSentries) :
    List.Forall₂
      (fun e part => ∃ x ∈ itemsOf c.diagram t,
        Leaves c.diagram s e x.1 ∧ part.RefersBy "sourceRef" x.2)
      s.edges (((sentry c s).map known).childrenNamed "planItemOnPart") := by
  obtain ⟨n, hn, h⟩ := List.mem_flatMap.1 h
  rw [childrenNamed_map, childrenNamed_sentry, onParts, List.map_map, List.forall₂_map_right_iff]
  nth_rewrite 1 [← List.zipIdx_map_fst 0 s.edges]
  rw [List.forall₂_map_left_iff, List.forall₂_same]
  rintro ⟨e, place⟩ he
  obtain ⟨n?, hleaves⟩ := exists_leaves hs hn h (List.fst_mem_of_mem_zipIdx he)
  rw [itemsOf_tree hs ht]
  -- the edge and the plan item that it leaves have the identifier made of the edge's source
  cases n? with
  | none =>
    refine ⟨_, List.mem_cons_self, hleaves, RefersBy.map known ⟨_, rfl, ?_⟩⟩
    show some (.ok (Identifier.planItemId c.case.mainItem)) = some (c.planItemId e.source)
    rw [Context.planItemId, if_pos hleaves.2.1]
  | some m =>
    refine ⟨_, List.mem_cons_of_mem _ (List.mem_map_of_mem hleaves.mem_inOrder), hleaves,
      RefersBy.map known ⟨_, rfl, ?_⟩⟩
    show some (c.planItemId m.slug) = some (c.planItemId e.source)
    rw [hleaves.1]

/-- Every sentry waits for the plan items that its edges leave. -/
theorem forall₂_onParts (hs : c.Sound) (ht : tree c = .ok t) :
    List.Forall₂
      (fun s sentry => List.Forall₂
        (fun e part => ∃ x ∈ itemsOf c.diagram t,
          Leaves c.diagram s e x.1 ∧ part.RefersBy "sourceRef" x.2)
        s.edges (sentry.childrenNamed "planItemOnPart"))
      (c.sentries.flatMap Prod.snd) (t.select "sentry") := by
  rw [select_sentry_tree hs ht, ← allSentries_eq hs, List.forall₂_map_right_iff]
  exact List.forall₂_same.2 fun s h => forall₂_onPart hs ht h

/-! ## The diagram -/

/-- What is awaited in the document in the making. -/
theorem awaited_root (hs : c.Sound) :
    awaited (root c) = c.allSentries.flatMap fun s => (onParts c s).map (sentry c s, ·) := by
  rw [awaited, select_sentry_root hs.toRouted, List.flatMap_map]
  exact List.flatMap_congr fun s _ => by rw [childrenNamed_sentry]

theorem awaited_tree (ht : tree c = .ok t) :
    awaited t = (awaited (root c)).map fun x => (x.1.map known, x.2.map known) := by
  rw [awaited, awaited, select_tree ht, List.flatMap_map, List.map_flatMap]
  refine List.flatMap_congr fun s _ => ?_
  rw [childrenNamed_map, List.map_map, List.map_map]
  rfl

/-- Nothing is waited for outside sentries. -/
theorem select_onPart_tree (hs : c.Sound) (ht : tree c = .ok t) :
    t.select "planItemOnPart" = (awaited t).map Prod.snd := by
  rw [awaited_tree ht, awaited_root hs, select_tree ht, select_onPart_root hs.toRouted]
  simp only [List.map_flatMap, List.map_map]
  rfl

/-- What the shapes of some nodes show. -/
def shapeTargets (c : Context α) (members : List (Node α)) : List Piece :=
  members.map (planItem c) ++ members.flatMap fun n => (c.sentriesOf n).map criterion

theorem forall₂_memberShapes (c : Context α) (members : List (Node α)) :
    List.Forall₂ (RefersBy "cmmnElementRef") (memberShapes c members) (shapeTargets c members) := by
  refine List.rel_append ?_ (List.rel_flatMap (List.forall₂_same.2 fun _ _ => rfl) ?_)
  · rw [List.forall₂_map_left_iff, List.forall₂_map_right_iff]
    exact List.forall₂_same.2 fun n _ => ⟨_, rfl, rfl⟩
  · rintro n _ rfl
    rw [List.forall₂_map_left_iff, List.forall₂_map_right_iff]
    exact List.forall₂_same.2 fun s _ => ⟨_, rfl, rfl⟩

/-- What the shapes within the plan model show. -/
def allShapeTargets (c : Context α) : List Piece :=
  shapeTargets c c.diagram.nodes ++ c.diagram.nodes.flatMap fun n => shapeTargets c n.children

omit [Coordinate α] in
/-- All plan items and criteria are shown. -/
theorem perm_allShapeTargets (c : Context α) :
    (allShapeTargets c).Perm
      (c.diagram.inOrder.map (planItem c) ++ c.allSentries.map criterion) := by
  rw [← Multiset.coe_eq_coe]
  simp only [allShapeTargets, shapeTargets, Context.allSentries, List.map_eq_flatMap,
    flatMap_inOrder, List.flatMap_append, List.flatMap_assoc, coe_flatMap_append,
    ← Multiset.coe_add]
  abel

/-- The shapes refer to the plan model, and to every plan item and criterion once. -/
theorem forall₂_shapes (hs : c.Sound) (ht : tree c = .ok t) :
    ∃ model targets, t.select "casePlanModel" = [model] ∧
      targets.Perm (model :: (t.select "planItem" ++ t.select "entryCriterion")) ∧
      List.Forall₂ (RefersBy "cmmnElementRef") (t.select "cmmndi:CMMNShape") targets := by
  have hnodes : List.Forall₂ (RefersBy "cmmnElementRef")
      (memberShapes c c.diagram.nodes ++ c.diagram.nodes.flatMap fun n => memberShapes c n.children)
      (allShapeTargets c) := by
    refine List.rel_append (forall₂_memberShapes c _)
      (List.rel_flatMap (List.forall₂_same.2 fun _ _ => rfl) ?_)
    rintro n _ rfl
    exact forall₂_memberShapes c n.children
  refine ⟨(planModel c).map known,
    (planModel c :: mainItem c :: allShapeTargets c).map (Node.map known), ?_, ?_, ?_⟩
  · rw [select_tree ht, select_casePlanModel_root hs.toRouted]
    rfl
  · rw [select_tree ht, select_tree ht, select_planItem_root hs.toRouted,
      select_entryCriterion_root hs.toRouted, ← List.map_append, ← List.map_cons]
    exact (((perm_allShapeTargets c).cons _).cons _).map _
  · rw [select_tree ht, select_shape_root hs.toRouted, List.forall₂_map_left_iff,
      List.forall₂_map_right_iff]
    exact List.Forall₂.imp (fun _ _ h => h.map known)
      (.cons ⟨_, rfl, rfl⟩ (.cons ⟨_, rfl, rfl⟩ hnodes))

/-- Criteria that refer to one sentry are one. -/
theorem criterion_unique (hs : c.Sound) (ht : tree c = .ok t) {s : Sentry α}
    (h : s ∈ c.allSentries) :
    ∀ other ∈ t.select "entryCriterion", other.RefersBy "sentryRef" ((sentry c s).map known) →
      other = (criterion s).map known := by
  rw [select_tree ht, select_entryCriterion_root hs.toRouted, List.map_map, List.forall_mem_map]
  rintro s' h' ⟨id, hother, hid⟩
  have hid' : some (sentryId s') = some (sentryId s) := hother.trans hid.symm
  rw [sentryName_inj hs.toRouted h' h (List.append_cancel_left (Option.some.inj hid'))]
  rfl

/-- The edges show what is awaited. -/
theorem forall₂_edges (hs : c.Sound) (ht : tree c = .ok t) :
    List.Forall₂ (Shows t) (t.select "cmmndi:CMMNEdge") (awaited t) := by
  rw [awaited_tree ht, awaited_root hs, select_tree ht, select_edge_root hs.toRouted,
    List.map_flatMap, List.map_flatMap]
  have hsame : List.Forall₂ (fun s s' => s = s' ∧ s ∈ c.allSentries) c.allSentries c.allSentries :=
    List.forall₂_same.2 fun s h => ⟨rfl, h⟩
  refine List.rel_flatMap hsame ?_
  rintro s _ ⟨rfl, h⟩
  simp only [onParts, List.map_map, List.forall₂_map_left_iff]
  nth_rewrite 1 [← List.zipIdx_map_fst 0 s.edges]
  rw [List.forall₂_map_left_iff, List.forall₂_map_right_iff]
  refine List.forall₂_same.2 fun x _ => ⟨rfl, (criterion s).map known, ?_, ?_, ?_, ?_⟩
  · rw [select_tree ht, select_entryCriterion_root hs.toRouted]
    exact List.mem_map_of_mem (List.mem_map_of_mem h)
  · exact RefersBy.map known ⟨_, rfl, rfl⟩
  · exact criterion_unique hs ht h
  · exact RefersBy.map known ⟨_, rfl, rfl⟩

/-- Documents are closed. -/
theorem isClosed_tree (hs : c.Sound) (ht : tree c = .ok t) : IsClosed c t where
  definitions := by
    rw [eq_map_of_tree ht, subtrees_map, List.forall_mem_map]
    exact fun parent h => (definesItems_root hs parent h).map known
  criteria := by
    rw [select_tree ht, List.forall_mem_map]
    exact fun stage h => (guardsItems_root hs stage h).map known
  items := forall₂_items hs ht
  sentries := by
    rw [select_sentry_tree hs ht, List.map_map]
    rfl
  onParts := forall₂_onParts hs ht
  awaited := select_onPart_tree hs ht
  shapes := forall₂_shapes hs ht
  edges := forall₂_edges hs ht

end Document

open Document

/-- Compiled documents are closed. -/
theorem compile_isClosed {config : Config} {name : Json}
    {application : Except CompileError Application} {raw : Json} {compiled : Compiled}
    (h : compile config (Case.make name application) (Logic.parse raw) = .ok compiled) :
    ∃ case logic c t, Case.make name application = .ok case ∧ Logic.parse raw = .ok logic ∧
      prepare config case logic = .ok c ∧ tree c = .ok t ∧
      compiled.document = render config.prettyPrint t ∧ IsClosed c t := by
  obtain ⟨case, logic, c, t, hcase, hlogic, hc, -, ht, rfl⟩ := compile_eq_ok_iff.1 h
  obtain ⟨hs, -, -, hconfig⟩ := sound_of_prepare (consistent_of_parse hlogic) hc
  exact ⟨case, logic, c, t, hcase, hlogic, hc, ht, by rw [hconfig], isClosed_tree hs ht⟩

/-- The sample, compiled. -/
theorem compile_isClosed_sample : ∃ compiled,
    compile {} (Case.make (.str "review") (.ok { identifier := "app" }))
        (Logic.parse Logic.sampleValue) = .ok compiled ∧
      ∃ (c : Context Rat) (t : Xml.Node Text), c.logic = Logic.sample ∧
        compiled.document = render true t ∧ IsClosed c t := by
  obtain ⟨compiled, hcompile⟩ := compile_sample
  obtain ⟨case, logic, c, t, -, hlogic, hc, -, hdocument, hclosed⟩ := compile_isClosed hcompile
  obtain rfl := Except.ok.inj (Logic.parse_sampleValue.symm.trans hlogic)
  exact ⟨compiled, hcompile, c, t,
    (sound_of_prepare (consistent_of_parse Logic.parse_sampleValue) hc).2.1, hdocument, hclosed⟩

end CasePlan
