import CasePlan.Proofs.Document.Collision
import CasePlan.Proofs.Document.Reference

/-!
# The identifiers that are compared

Before a document is written, `Identifier.check` compares identifiers that are listed from the
description: for the case, for every stage, and for every task with the stage that it is in.  The
document takes them from the diagram: from its nodes and their parents.

* `Xml.Node.namedElements`: the elements of a document whose identifiers are made of names.
* `haveIds_namedPieces`, `namedIds_map_root`: the identifiers that a document gives them.
* `perm_givenIds`: these are the listed ones, in another order.
* `Identifier.exists_check_eq_error_iff`: when the comparison fails.
* `listed_given`: so it does exactly if two of these elements would have one identifier.
-/

namespace CasePlan

namespace Xml.Node

variable {τ : Type} [DecidableEq τ]

/-- A shape is that of an entry criterion of a document. -/
def IsOfCriterion (t shape : Node τ) : Prop :=
  shape.attribute? "cmmnElementRef" ∈ (t.select "entryCriterion").map (·.attribute? "id")

instance (t shape : Node τ) : Decidable (t.IsOfCriterion shape) :=
  inferInstanceAs (Decidable (_ ∈ _))

/-- The shapes in a document that are of no entry criterion. -/
def itemShapes (t : Node τ) : List (Node τ) :=
  (t.select "cmmndi:CMMNShape").filter (¬t.IsOfCriterion ·)

/-- The elements of a document whose identifiers are made of names: its plan models, plan items,
stages and human tasks, and the shapes that are of no entry criterion. -/
def namedElements (t : Node τ) : List (Node τ) :=
  t.select "casePlanModel" ++ t.select "planItem" ++ t.select "stage" ++ t.select "humanTask" ++
    t.itemShapes

/-- The identifiers of these elements, as far as they have one. -/
def namedIds (t : Node τ) : List (Option τ) := t.namedElements.map (·.attribute? "id")

end Xml.Node

namespace Document

open Xml.Node

variable {α : Type} [Coordinate α] {c : Context α}

/-! ## The identifiers that are given -/

omit [Coordinate α] in
/-- The identifiers that a document gives to what has a name, in order. -/
def givenIds (c : Context α) : List Text :=
  [c.case.planModelId] ++
    (Identifier.planItemId c.case.mainItem :: c.diagram.inOrder.map (nodeItemId c)) ++
    (c.case.mainStageId :: (c.diagram.nodes.filter (·.kind = .stage)).map c.definitionId) ++
    ((c.diagram.nodes.flatMap fun n => (n.children.filter (·.kind = .task)).map c.definitionId) ++
      (c.diagram.nodes.filter (·.kind = .task)).map c.definitionId) ++
    (Identifier.shapeId c.case.name :: Identifier.shapeId c.case.mainItem ::
      c.diagram.inOrder.map fun n => Identifier.shapeId (scopedName c n))

/-- The shape of a node. -/
def itemShape (c : Context α) (n : Node α) : Piece :=
  shape (Identifier.shapeId (scopedName c n)) (c.planItemId n.slug) n.box

/-- The shape of a sentry. -/
def sentryShape (s : Sentry α) : Piece := shape (sentryShapeId s) (.ok (criterionId s)) s.box

/-- The pieces of a document that have a name, in order. -/
def namedPieces (c : Context α) : List Piece :=
  [planModel c] ++ (mainItem c :: c.diagram.inOrder.map (planItem c)) ++
    (mainStage c :: c.diagram.nodes.flatMap fun n =>
      if n.kind = .stage then [nestedStageOf c n] else []) ++
    ((c.diagram.nodes.flatMap fun n => (n.children.filter (·.kind = .task)).map (humanTask c)) ++
      (c.diagram.nodes.filter (·.kind = .task)).map (humanTask c)) ++
    (modelShape c :: mainShape c :: c.diagram.inOrder.map (itemShape c))

/-- Pieces with the given identifiers. -/
def HaveIds (pieces : List Piece) (ids : List Text) : Prop :=
  List.Forall₂ (fun x id => x.attribute? "id" = some (.ok id)) pieces ids

/-- No plan model and no plan item has the identifier of a criterion. -/
theorem refs_notMem_criteria (hs : c.Routed) :
    c.case.planModelId ∉ c.allSentries.map criterionId ∧
      ∀ name, Identifier.planItemId name ∉ c.allSentries.map criterionId := by
  have hmade : ∀ s : Sentry α, criterionId s ∈ generatedIds c s := fun s =>
    mem_generatedIds.2 (.inl rfl)
  refine ⟨fun h => ?_, fun name h => ?_⟩
  · obtain ⟨s, hmem, hid⟩ := List.mem_map.1 h
    obtain ⟨place, -, he⟩ := (planModel_mem_generatedIds hs hmem).1 (hid ▸ hmade s)
    exact ne_of_beginnings (by decide) (by decide) (criterionId_begins s) (onPartId_begins s place)
      (hid.trans he.symm)
  · obtain ⟨s, -, hid⟩ := List.mem_map.1 h
    exact planItem_notMem_generatedIds s name (hid ▸ hmade s)

/-- Of the shapes of nodes and sentries those of the nodes, in order. -/
theorem filter_memberShapes {p : Piece → Bool}
    (hitem : ∀ n ∈ c.diagram.inOrder, p (itemShape c n) = true)
    (hsentry : ∀ s ∈ c.allSentries, p (sentryShape s) = false) :
    (memberShapes c c.diagram.nodes ++
      c.diagram.nodes.flatMap fun n => memberShapes c n.children).filter p =
      c.diagram.inOrder.map (itemShape c) := by
  have hmembers : ∀ ns : List (Node α), (∀ n ∈ ns, n ∈ c.diagram.inOrder) →
      (memberShapes c ns).filter p = ns.map (itemShape c) := by
    intro ns hns
    have hparts : memberShapes c ns =
        ns.map (itemShape c) ++ ns.flatMap fun n => (c.sentriesOf n).map sentryShape := rfl
    have hitems : (ns.map (itemShape c)).filter p = ns.map (itemShape c) :=
      List.filter_eq_self.2 (List.forall_mem_map.2 fun n hn => hitem n (hns n hn))
    have hsentries : (ns.flatMap fun n => (c.sentriesOf n).map sentryShape).filter p = [] := by
      refine List.filter_eq_nil_iff.2 fun x hx => ?_
      obtain ⟨n, hn, hx⟩ := List.mem_flatMap.1 hx
      obtain ⟨s, hs, rfl⟩ := List.mem_map.1 hx
      rw [hsentry s (List.mem_flatMap.2 ⟨n, hns n hn, hs⟩)]
      exact Bool.false_ne_true
    rw [hparts, List.filter_append, hitems, hsentries, List.append_nil]
  rw [List.filter_append, hmembers _ fun n hn => Diagram.mem_inOrder.2 (.inl hn),
    List.filter_flatMap, Diagram.inOrder, List.map_append, List.map_flatMap]
  refine congrArg _ (List.flatMap_congr fun n hn => hmembers _ fun m hm => ?_)
  exact Diagram.mem_inOrder.2 (.inr ⟨n, hn, hm⟩)

theorem flatMap_ite_singleton {β γ : Type} (p : β → Prop) [DecidablePred p] (g : β → γ)
    (xs : List β) : (xs.flatMap fun x => if p x then [g x] else []) = (xs.filter (p ·)).map g := by
  induction xs with
  | nil => rfl
  | cons x xs ih =>
    rw [List.flatMap_cons, List.filter_cons, ih]
    by_cases hx : p x <;> simp [hx]

theorem HaveIds.nil : HaveIds [] [] := List.Forall₂.nil

theorem HaveIds.cons {x : Piece} {id : Text} {pieces : List Piece} {ids : List Text}
    (hid : x.attribute? "id" = some (.ok id)) (h : HaveIds pieces ids) :
    HaveIds (x :: pieces) (id :: ids) :=
  List.Forall₂.cons hid h

theorem HaveIds.append {pieces pieces' : List Piece} {ids ids' : List Text}
    (h : HaveIds pieces ids) (h' : HaveIds pieces' ids') :
    HaveIds (pieces ++ pieces') (ids ++ ids') :=
  List.rel_append h h'

theorem haveIds_map {β : Type} {piece : β → Piece} {id : β → Text} {xs : List β}
    (h : ∀ x ∈ xs, (piece x).attribute? "id" = some (.ok (id x))) :
    HaveIds (xs.map piece) (xs.map id) :=
  List.forall₂_map_left_iff.2 (List.forall₂_map_right_iff.2 (List.forall₂_same.2 h))

theorem haveIds_flatMap {β : Type} {pieces : β → List Piece} {ids : β → List Text} {xs : List β}
    (h : ∀ x ∈ xs, HaveIds (pieces x) (ids x)) : HaveIds (xs.flatMap pieces) (xs.flatMap ids) := by
  rw [List.flatMap_def, List.flatMap_def]
  exact List.rel_flatten (List.forall₂_map_left_iff.2 (List.forall₂_map_right_iff.2
    (List.forall₂_same.2 h)))

theorem haveIds_humanTasks (hs : c.Routed) {ns : List (Node α)}
    (hns : ∀ n ∈ ns, n ∈ c.diagram.inOrder) :
    HaveIds ((ns.filter (·.kind = .task)).map (humanTask c))
      ((ns.filter (·.kind = .task)).map c.definitionId) := by
  refine haveIds_map fun n hn => ?_
  obtain ⟨hn, hk⟩ := List.mem_filter.1 hn
  exact attribute?_humanTask hs (hns n hn) (of_decide_eq_true hk)

omit [Coordinate α] in
theorem haveIds_nestedStages (c : Context α) :
    HaveIds (c.diagram.nodes.flatMap fun n => if n.kind = .stage then [nestedStageOf c n] else [])
      ((c.diagram.nodes.filter (·.kind = .stage)).map c.definitionId) := by
  rw [flatMap_ite_singleton]
  refine haveIds_map fun n hn => ?_
  have hk : n.kind = .stage := of_decide_eq_true (List.mem_filter.1 hn).2
  rw [Context.definitionId, hk]
  rfl

/-- The identifiers of the pieces that have a name. -/
theorem haveIds_namedPieces (hs : c.Routed) : HaveIds (namedPieces c) (givenIds c) := by
  have hitems : HaveIds (c.diagram.inOrder.map (planItem c))
      (c.diagram.inOrder.map (nodeItemId c)) :=
    haveIds_map fun n hn => congrArg some (planItemId_eq hs hn)
  have hshapes : HaveIds (c.diagram.inOrder.map (itemShape c))
      (c.diagram.inOrder.map fun n => Identifier.shapeId (scopedName c n)) :=
    haveIds_map fun _ _ => rfl
  have htop : ∀ n ∈ c.diagram.nodes, n ∈ c.diagram.inOrder := fun n hn =>
    Diagram.mem_inOrder.2 (.inl hn)
  have hchildren : ∀ n ∈ c.diagram.nodes, ∀ m ∈ n.children, m ∈ c.diagram.inOrder :=
    fun n hn m hm => Diagram.mem_inOrder.2 (.inr ⟨n, hn, hm⟩)
  refine .append (.append (.append (.append ?_ ?_) ?_) (.append ?_ ?_)) ?_
  · exact .cons rfl .nil
  · exact .cons rfl hitems
  · exact .cons rfl (haveIds_nestedStages c)
  · exact haveIds_flatMap fun n hn => haveIds_humanTasks hs (hchildren n hn)
  · exact haveIds_humanTasks hs htop
  · exact .cons rfl (.cons rfl hshapes)

section

variable {τ : Type} [DecidableEq τ] {f : Draft → τ}

omit [DecidableEq τ] in
/-- A shape is that of a criterion exactly if it refers to one. -/
theorem isOfCriterion_map_root (hs : c.Routed) (hf : ∀ s t : Text, f (.ok s) = f (.ok t) → s = t)
    (id ref : Text) (b : Box α) :
    ((root c).map f).IsOfCriterion ((shape id (.ok ref) b).map f) ↔
      ref ∈ c.allSentries.map criterionId := by
  have hcriteria : (((root c).map f).select "entryCriterion").map (·.attribute? "id") =
      c.allSentries.map fun s => some (f (.ok (criterionId s))) := by
    rw [select_map, select_entryCriterion_root hs, List.map_map, List.map_map]
    rfl
  have href : ((shape id (.ok ref) b).map f).attribute? "cmmnElementRef" = some (f (.ok ref)) := rfl
  rw [IsOfCriterion, hcriteria, href]
  simp only [List.mem_map, Option.some.injEq]
  exact ⟨fun ⟨s, hmem, h⟩ => ⟨s, hmem, hf _ _ h⟩, fun ⟨s, hmem, h⟩ => ⟨s, hmem, by rw [h]⟩⟩

/-- The shapes of a document that are of no criterion are those of the plan model, of the main plan
item and of the nodes, whatever known texts become. -/
theorem itemShapes_map_root (hs : c.Routed)
    (hf : ∀ s t : Text, f (.ok s) = f (.ok t) → s = t) :
    ((root c).map f).itemShapes =
      (modelShape c :: mainShape c :: c.diagram.inOrder.map (itemShape c)).map (Xml.Node.map f) := by
  obtain ⟨hmodel, hplanItem⟩ := refs_notMem_criteria hs
  have hkept : ∀ (id ref : Text) (b : Box α), ref ∉ c.allSentries.map criterionId →
      decide (¬((root c).map f).IsOfCriterion ((shape id (.ok ref) b).map f)) = true :=
    fun id ref b h => decide_eq_true (mt (isOfCriterion_map_root hs hf id ref b).1 h)
  rw [itemShapes, select_map f "cmmndi:CMMNShape", select_shape_root hs, List.filter_map]
  refine congrArg _ ((List.filter_cons_of_pos ?_).trans (congrArg _
    ((List.filter_cons_of_pos ?_).trans (congrArg _ (filter_memberShapes ?_ ?_)))))
  · rw [Function.comp_apply, modelShape]
    exact hkept _ _ _ hmodel
  · rw [Function.comp_apply, mainShape]
    exact hkept _ _ _ (hplanItem _)
  · intro n hn
    rw [Function.comp_apply, itemShape, planItemId_eq hs hn]
    exact hkept _ _ _ (hplanItem _)
  · intro s hmem
    rw [Function.comp_apply, sentryShape]
    refine decide_eq_false (not_not.2 ?_)
    exact (isOfCriterion_map_root hs hf _ _ _).2 (List.mem_map_of_mem hmem)

/-- The elements that have a name, whatever known texts become. -/
theorem namedElements_map_root (hs : c.Routed)
    (hf : ∀ s t : Text, f (.ok s) = f (.ok t) → s = t) :
    ((root c).map f).namedElements = (namedPieces c).map (Xml.Node.map f) := by
  rw [namedElements, itemShapes_map_root hs hf, select_map, select_map, select_map, select_map,
    select_casePlanModel_root hs, select_planItem_root hs, select_stage_root hs,
    select_humanTask_root hs, ← List.map_append, ← List.map_append, ← List.map_append,
    ← List.map_append]
  rfl

omit [DecidableEq τ] in
/-- Known identifiers become what known texts become. -/
theorem HaveIds.map {pieces : List Piece} {ids : List Text} (h : HaveIds pieces ids) :
    (pieces.map (Xml.Node.map f)).map (·.attribute? "id") = ids.map fun id => some (f (.ok id)) := by
  induction h with
  | nil => rfl
  | cons hid _ ih =>
    rw [List.map_cons, List.map_cons, List.map_cons, ih, attribute?_map, hid]
    rfl

/-- The identifiers that a document gives, whatever known texts become. -/
theorem namedIds_map_root (hs : c.Routed) (hf : ∀ s t : Text, f (.ok s) = f (.ok t) → s = t) :
    ((root c).map f).namedIds = (givenIds c).map fun id => some (f (.ok id)) := by
  rw [namedIds, namedElements_map_root hs hf]
  exact (haveIds_namedPieces hs).map

end

/-! ## They are the listed ones -/

/-- Every node is a stage at the top, a task in one, or a task at the top. -/
theorem perm_kinds (hs : c.Routed) :
    (c.diagram.nodes.filter (·.kind = .stage) ++
      (c.diagram.nodes.flatMap (fun n => n.children.filter (·.kind = .task)) ++
        c.diagram.nodes.filter (·.kind = .task))).Perm c.diagram.inOrder := by
  have hchildren : ∀ n ∈ c.diagram.nodes, n.children.filter (·.kind = .task) = n.children :=
    fun n hn => List.filter_eq_self.2 fun m hm => decide_eq_true (kind_of_mem_children hs hn hm)
  have htop : c.diagram.nodes.filter (·.kind = .task) =
      c.diagram.nodes.filter fun n => !decide (n.kind = .stage) :=
    List.filter_congr fun n _ => by cases n.kind <;> rfl
  rw [List.flatMap_congr hchildren, htop, Diagram.inOrder]
  refine (List.perm_append_comm.append_left _).trans ?_
  rw [← List.append_assoc]
  exact (List.filter_append_perm (fun n : Node α => decide (n.kind = .stage)) _).append_right _

/-- The identifiers that a document gives are those of the case and of the nodes. -/
theorem perm_givenIds (hs : c.Routed) :
    (givenIds c).Perm (scaffoldIds c ++ c.diagram.inOrder.flatMap (nodeIds c)) := by
  have hgiven : givenIds c = [c.case.planModelId] ++
      ([Identifier.planItemId c.case.mainItem] ++ c.diagram.inOrder.map (nodeItemId c)) ++
      ([c.case.mainStageId] ++ (c.diagram.nodes.filter (·.kind = .stage)).map c.definitionId) ++
      ((c.diagram.nodes.flatMap fun n => (n.children.filter (·.kind = .task)).map c.definitionId) ++
        (c.diagram.nodes.filter (·.kind = .task)).map c.definitionId) ++
      ([Identifier.shapeId c.case.name] ++ ([Identifier.shapeId c.case.mainItem] ++
        c.diagram.inOrder.map fun n => Identifier.shapeId (scopedName c n))) := rfl
  have hscaffold : scaffoldIds c = [c.case.planModelId] ++ [Identifier.shapeId c.case.name] ++
      [c.case.mainStageId] ++ [Identifier.planItemId c.case.mainItem] ++
      [Identifier.shapeId c.case.mainItem] := rfl
  have hnode : nodeIds c = fun n =>
      [nodeItemId c n] ++ [Identifier.shapeId (scopedName c n)] ++ [c.definitionId n] := rfl
  have hdefinitions := (perm_kinds hs).map c.definitionId
  rw [List.map_append, List.map_append, List.map_flatMap, ← Multiset.coe_eq_coe] at hdefinitions
  rw [hgiven, hscaffold, hnode, ← Multiset.coe_eq_coe]
  simp only [coe_flatMap_append, ← Multiset.coe_add, ← List.map_eq_flatMap] at hdefinitions ⊢
  rw [← hdefinitions]
  abel

end Document

open Document

/-! ## When the comparison fails -/

namespace Identifier

theorem eq_sharedId_of_firstShared {before entries : List (Text × Text)} {r : Rejection}
    (h : firstShared before entries = some r) :
    ∃ id owner earlier, r = .sharedId id owner earlier := by
  induction entries generalizing before with
  | nil => simp [firstShared] at h
  | cons entry rest ih =>
    rw [firstShared] at h
    split at h
    · exact ⟨_, _, _, (Option.some.inj h).symm⟩
    · exact ih h

/-- The comparison fails exactly if an identifier is listed twice. -/
theorem exists_check_eq_error_iff {logic : Logic} {case : Case} :
    (∃ id owner earlier, check logic case = .error (.sharedId id owner earlier)) ↔
      ¬((listed logic case).map Prod.fst).Nodup := by
  rw [← check_eq_ok_iff]
  cases h : firstShared [] (listed logic case) with
  | none => simp [check, h]
  | some r =>
    obtain ⟨id, owner, earlier, rfl⟩ := eq_sharedId_of_firstShared h
    simp [check, h]

end Identifier

/-- The identifiers that are compared are those that the document gives to the plan model, the plan
items, the stages, the human tasks and the shapes of all these but the criteria, for every name of a
case and every application; so the comparison fails exactly if two of these elements would have one
identifier.  No slug may be the name by which edges refer to the main stage. -/
theorem listed_given {raw : Json} {logic : Logic} (h : Logic.parse raw = .ok logic)
    (hroot : ∀ slug ∈ logic.stages.map (·.slug) ++ logic.tasks.map (·.slug), slug ≠ rootContainer)
    (config : Config) (case : Case) :
    ∃ (c : Context Rat) (ids : List Text), c.logic = logic ∧ c.case = case ∧ c.config = config ∧
      layOut config.layoutMode logic = .ok c.diagram ∧ route logic c.diagram = .ok c.sentries ∧
      (root c).namedIds = ids.map (fun id => some (.ok id)) ∧
      (∀ document, emit c = .ok document → ∃ t, tree c = .ok t ∧
        document = render config.prettyPrint t ∧ t.namedIds = ids.map some) ∧
      ids.Perm ((Identifier.listed logic case).map Prod.fst) ∧
      ((∃ id owner earlier, Identifier.check logic case = .error (.sharedId id owner earlier)) ↔
        ¬ids.Nodup) := by
  have hc := consistent_of_parse h
  have hlaid := Layout.layOut_eq_ok hc config.layoutMode
  obtain ⟨sentries, hrouted, -⟩ :=
    route_represents (Layout.depicts_diagram config.layoutMode logic) hc
  have hs := routed_of_route case hc hlaid hrouted
  have hslugs : rootContainer ∉
      (Layout.diagram config.layoutMode logic).inOrder.map (·.slug) := by
    intro hmem
    obtain ⟨n, hn, hslug⟩ := List.mem_map.1 hmem
    refine hroot n.slug ?_ hslug
    rw [List.mem_append, List.mem_map, List.mem_map]
    exact (hs.diagram.shows_of_mem hc hn).imp (fun ⟨s, hs, hshows⟩ => ⟨s, hs, hshows.slug.symm⟩)
      fun ⟨t, ht, hshows⟩ => ⟨t, ht, hshows.slug.symm⟩
  have hperm := (perm_givenIds hs).trans (perm_listedIds hs hslugs)
  refine ⟨{ logic, diagram := _, sentries, case, config }, givenIds _, rfl, rfl, rfl, hlaid,
    hrouted, ?_, fun document hdocument => ?_, hperm, ?_⟩
  · have hids := namedIds_map_root hs (f := id) fun _ _ => Except.ok.inj
    rwa [Xml.Node.map_id] at hids
  · rw [emit, hc.unknownApprover?_eq_none] at hdocument
    obtain ⟨t, ht, rfl⟩ := map_eq_ok_iff.1 hdocument
    refine ⟨t, ht, rfl, ?_⟩
    rw [eq_map_of_tree ht]
    exact namedIds_map_root hs fun _ _ h => h
  · rw [hperm.nodup_iff]
    exact Identifier.exists_check_eq_error_iff

/-- A task in a stage, both defined by elements with the identifier `astage`. -/
def meeting : Logic where
  tasks := [{ slug := "stage", displayName := "Stage", outcomes := ["done"] }]
  stages := [{ slug := "a", displayName := "A", members := ["stage"] }]

/-- The value that holds `meeting`. -/
def meetingValue : Json :=
  .obj [("tasks", .arr [.obj [("slug", .str "stage"), ("displayName", .str "Stage"),
      ("outcomes", .arr [.str "done"])]]),
    ("stages", .arr [.obj [("slug", .str "a"), ("displayName", .str "A"),
      ("tasks", .arr [.str "stage"])]])]

/-- The comparison fails for it, and its document would have two elements with one identifier. -/
theorem listed_given_meeting :
    (∃ id owner earlier, Identifier.check meeting ⟨"case", { identifier := "app" }⟩ =
      .error (.sharedId id owner earlier)) ∧
    ∃ (c : Context Rat) (document : Text) (t : Xml.Node Text), c.logic = meeting ∧
      emit c = .ok document ∧ tree c = .ok t ∧ document = render true t ∧ ¬t.namedIds.Nodup := by
  have hparse : Logic.parse meetingValue = .ok meeting := by rfl
  have hcheck : ∃ id owner earlier, Identifier.check meeting ⟨"case", { identifier := "app" }⟩ =
      .error (.sharedId id owner earlier) := ⟨"astage", _, _, by rfl⟩
  have hemits : (((layOut .alternating meeting).toOption.bind fun d =>
      (route meeting d).toOption.bind fun sentries => (emit (Context.mk meeting d sentries
        ⟨"case", { identifier := "app" }⟩ {} meeting.repeatable rfl)).toOption)).isSome = true := by
    decide +kernel
  obtain ⟨document, hdocument⟩ := Option.isSome_iff_exists.1 hemits
  obtain ⟨d, hd, hdocument⟩ := Option.bind_eq_some_iff.1 hdocument
  obtain ⟨sentries, hsentries, hdocument⟩ := Option.bind_eq_some_iff.1 hdocument
  rw [toOption_eq_some_iff] at hd hsentries hdocument
  obtain ⟨⟨_, _, _, _, _, _, hrepeatable⟩, ids, rfl, rfl, rfl, hlaid, hrouted, -, hids, -, hiff⟩ :=
    listed_given hparse (by decide) {} ⟨"case", { identifier := "app" }⟩
  obtain rfl := hrepeatable
  obtain rfl := Except.ok.inj (hd.symm.trans hlaid)
  obtain rfl := Except.ok.inj (hsentries.symm.trans hrouted)
  obtain ⟨t, ht, hrender, hnamed⟩ := hids document hdocument
  refine ⟨hcheck, _, document, t, rfl, hdocument, ht, hrender, ?_⟩
  rw [hnamed]
  exact fun hnodup => hiff.1 hcheck (List.Nodup.of_map _ hnodup)

end CasePlan
