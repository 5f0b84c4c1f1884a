import CasePlan.Proofs.Document.Elements
import CasePlan.Proofs.Document.Settling
import CasePlan.Proofs.Text.Numeral

/-!
# When identifiers meet

Only the identifiers that are made of names alone are compared before a document is written.  The
others are those of the case and of the diagram, and those of sentries with what they wait for,
their shapes and their edges.  `Context.Unambiguous` says which of them can meet another identifier
and have to differ for all identifiers to differ; all other pairs always do.

* `nodup_sentries`, `sentryName_inj`: no two sentries have one name.
* `nodup_generatedIds_iff`: when the identifiers made for sentries differ from each other.
* `nodup_documentIds_iff`: when all identifiers of a document differ; `compile_ids_nodup_iff` says
  so of compiled documents.
-/

namespace CasePlan

namespace Document

variable {α : Type} [Coordinate α] {c : Context α}

/-! ## What has to differ -/

namespace Context

omit [Coordinate α] in
/-- The sentries of all nodes. -/
def allSentries (c : Context α) : List (Sentry α) := c.diagram.inOrder.flatMap c.sentriesOf

/-- The identifiers that are compared before a document is written. -/
def listedIds (c : Context α) : List Text := (Identifier.listed c.logic c.case).map Prod.fst

/-- The ends of all edges, with the numbers of the sentries that they lead to. -/
def numberedEnds (c : Context α) : List (Text × Nat) :=
  c.allSentries.flatMap fun s => s.edges.map fun e => (edgeEnds c e, s.index)

/-- Identifiers that are not compared, and yet can meet others, do not. -/
structure Unambiguous (c : Context α) : Prop where
  /-- No node has the name by which edges refer to the main stage; its plan item would have the
  identifier of the main one. -/
  root : rootContainer ∉ c.diagram.inOrder.map (·.slug)
  /-- The identifier of the case is none of those that are compared. -/
  case : c.case.id ∉ c.listedIds
  /-- No stage and no task has the identifier of the diagram. -/
  diagram : ∀ n ∈ c.diagram.inOrder, c.definitionId n ≠ diagramId c
  /-- The case has no identifier that is made for a sentry. -/
  caseGenerated : ∀ s ∈ c.allSentries, c.case.id ∉ generatedIds c s
  /-- No task has one. -/
  taskGenerated : ∀ s ∈ c.allSentries, ∀ n ∈ c.diagram.inOrder, n.kind = .task →
    c.definitionId n ∉ generatedIds c s
  /-- The plan model has none that is made for what a sentry waits for. -/
  planModel : ∀ s ∈ c.allSentries, ∀ place < s.edges.length, c.case.planModelId ≠ onPartId s place
  /-- No shape of the case or of a node has the identifier of the shape of a sentry. -/
  shape : ∀ s ∈ c.allSentries,
    ∀ name ∈ c.case.name :: c.case.mainItem :: c.diagram.inOrder.map (scopedName c),
      Identifier.shapeId name ≠ sentryShapeId s
  /-- No sentry has an identifier that is made for what a sentry waits for. -/
  onPart : ∀ s ∈ c.allSentries, ∀ t ∈ c.allSentries, ∀ place < t.edges.length,
    sentryId s ≠ onPartId t place
  /-- No two edges have the same ends and lead to sentries of the same number. -/
  edge : c.numberedEnds.Nodup

end Context

open Context

/-! ## Sentries have different names -/

theorem index_lt (hs : c.Routed) {s : Sentry α} (h : s ∈ c.allSentries) : s.index < 3 := by
  obtain ⟨n, hn, hmem⟩ := List.mem_flatMap.1 h
  have hguard := hs.guardedBy hn
  have hlen : (c.sentriesOf n).length ≤ 3 := by
    simpa using hguard.kind.length_le
  have hindex : s.index ∈ List.range (c.sentriesOf n).length := by
    rw [← hguard.index]
    exact List.mem_map.2 ⟨s, hmem, rfl⟩
  exact (List.mem_range.1 hindex).trans_le hlen

/-- No two sentries have the same owner and number. -/
theorem nodup_sentries (hs : c.Routed) :
    (c.allSentries.map fun s => (s.owner, s.index)).Nodup := by
  rw [allSentries, List.map_flatMap]
  have hnodup := List.Nodup.of_map _ (hs.diagram.nodup_inOrder hs.logic)
  refine List.nodup_flatMap.2 ⟨fun n hn => ?_, hnodup.pairwise_of_forall_ne ?_⟩
  · refine List.Nodup.of_map Prod.snd ?_
    rw [List.map_map]
    show ((c.sentriesOf n).map (·.index)).Nodup
    rw [(hs.guardedBy hn).index]
    exact List.nodup_range
  · intro m hm n hn hne x hx hx'
    obtain ⟨s, hsm, rfl⟩ := List.mem_map.1 hx
    obtain ⟨t, htn, ht⟩ := List.mem_map.1 hx'
    have howner : m.slug = n.slug := by
      rw [← (hs.guardedBy hm).owner s hsm, ← (hs.guardedBy hn).owner t htn]
      exact (congrArg Prod.fst ht).symm
    exact hne (List.inj_on_of_nodup_map (hs.diagram.nodup_inOrder hs.logic) hm hn howner)

theorem sentryName_inj (hs : c.Routed) {s t : Sentry α} (h : s ∈ c.allSentries)
    (h' : t ∈ c.allSentries) (hname : sentryName s = sentryName t) : s = t := by
  have hlt := index_lt hs h
  have hlt' := index_lt hs h'
  obtain ⟨howner, hindex⟩ := (Text.append_ofNat_inj (by omega) (by omega)).1 hname
  exact List.inj_on_of_nodup_map (nodup_sentries hs) h h' (Prod.ext howner hindex)

/-- A kind of identifier that is made of the names of sentries. -/
theorem nodup_map_sentryName (hs : c.Routed) (beginning : Text) :
    (c.allSentries.map fun s => beginning ++ sentryName s).Nodup :=
  (List.Nodup.of_map _ (nodup_sentries hs)).map_on fun _ h _ h' he =>
    sentryName_inj hs h h' (List.append_cancel_left he)

theorem nodup_onPartIds (hs : c.Routed) :
    (c.allSentries.flatMap fun s => (List.range s.edges.length).map (onPartId s)).Nodup := by
  refine List.nodup_flatMap.2 ⟨fun s _ => ?_,
    (List.Nodup.of_map _ (nodup_sentries hs)).pairwise_of_forall_ne ?_⟩
  · exact List.nodup_range.map_on fun i _ j _ h => (Text.append_lowLine_ofNat_inj.1 h).2
  · intro s h t h' hne x hx hx'
    obtain ⟨i, -, rfl⟩ := List.mem_map.1 hx
    obtain ⟨j, -, hj⟩ := List.mem_map.1 hx'
    have hname := List.append_cancel_left (Text.append_lowLine_ofNat_inj.1 hj).1
    exact hne (sentryName_inj hs h' h hname).symm

theorem nodup_edgeIds_iff (hs : c.Routed) :
    (c.allSentries.flatMap fun s => s.edges.map (edgeId c s)).Nodup ↔ c.numberedEnds.Nodup := by
  have hmap : (c.allSentries.flatMap fun s => s.edges.map (edgeId c s)) =
      c.numberedEnds.map fun x => "CMMNEdge_sid-" ++ x.1 ++ Text.ofNat x.2 := by
    rw [numberedEnds, List.map_flatMap]
    simp only [List.map_map]
    rfl
  have hlt : ∀ x ∈ c.numberedEnds, x.2 < 3 := by
    intro x hx
    obtain ⟨s, h, hx⟩ := List.mem_flatMap.1 hx
    obtain ⟨e, -, rfl⟩ := List.mem_map.1 hx
    exact index_lt hs h
  rw [hmap]
  refine ⟨List.Nodup.of_map _, fun h => h.map_on fun x hx y hy he => ?_⟩
  have hx' := hlt x hx
  have hy' := hlt y hy
  obtain ⟨hends, hindex⟩ := (Text.append_ofNat_inj (by omega) (by omega)).1 he
  exact Prod.ext (List.append_cancel_left hends) hindex

/-! ## Identifiers that are made for sentries -/

omit [Coordinate α] in
theorem criterionId_begins (s : Sentry α) : ("sid-" : Text) <+: criterionId s := ⟨_, rfl⟩

omit [Coordinate α] in
theorem sentryShapeId_begins (s : Sentry α) : ("CMMNShape_" : Text) <+: sentryShapeId s :=
  ⟨("planItem" ++ sentryName s : Text), rfl⟩

omit [Coordinate α] in
theorem sentryId_begins (s : Sentry α) : ("sentry" : Text) <+: sentryId s := ⟨_, rfl⟩

omit [Coordinate α] in
theorem onPartId_begins (s : Sentry α) (place : Nat) : ("sentry" : Text) <+: onPartId s place :=
  ⟨("OnPart" ++ sentryName s ++ "_" ++ Text.ofNat place : Text), rfl⟩

omit [Coordinate α] in
theorem edgeId_begins (c : Context α) (s : Sentry α) (e : Edge α) :
    ("CMMNEdge_" : Text) <+: edgeId c s e :=
  ⟨("sid-" ++ edgeEnds c e ++ Text.ofNat s.index : Text), rfl⟩

/-- Texts with different beginnings are different. -/
theorem ne_of_beginnings {p q s t : Text} (hpq : ¬p <+: q) (hqp : ¬q <+: p) (hs : p <+: s)
    (ht : q <+: t) : s ≠ t := by
  obtain ⟨s, rfl⟩ := hs
  obtain ⟨t, rfl⟩ := ht
  exact Text.append_ne_append hpq hqp s t

/-- Texts of two kinds with different beginnings are different. -/
theorem disjoint_of_beginnings {p q : Text} (hpq : ¬p <+: q) (hqp : ¬q <+: p) {xs ys : List Text}
    (hx : ∀ x ∈ xs, p <+: x) (hy : ∀ y ∈ ys, q <+: y) : xs.Disjoint ys := by
  intro z hzx hzy
  exact ne_of_beginnings hpq hqp (hx z hzx) (hy z hzy) rfl

omit [Coordinate α] in
theorem perm_generatedIds (c : Context α) :
    (c.allSentries.flatMap (generatedIds c)).Perm
      (c.allSentries.map criterionId ++ (c.allSentries.map sentryShapeId ++
        (c.allSentries.map sentryId ++
          ((c.allSentries.flatMap fun s => (List.range s.edges.length).map (onPartId s)) ++
            c.allSentries.flatMap fun s => s.edges.map (edgeId c s))))) := by
  have hgenerated : generatedIds c = fun s => [criterionId s] ++ [sentryShapeId s] ++ [sentryId s] ++
      (List.range s.edges.length).map (onPartId s) ++ s.edges.map (edgeId c s) := rfl
  rw [← Multiset.coe_eq_coe, hgenerated]
  simp only [coe_flatMap_append, ← Multiset.coe_add, List.map_eq_flatMap, add_assoc]

omit [Coordinate α] in
/-- Sentries and what they wait for have different identifiers exactly if no two of them meet. -/
theorem disjoint_sentryIds_onPartIds_iff (c : Context α) :
    (c.allSentries.map sentryId).Disjoint (c.allSentries.flatMap fun s =>
        (List.range s.edges.length).map (onPartId s)) ↔
      ∀ s ∈ c.allSentries, ∀ t ∈ c.allSentries, ∀ place < t.edges.length,
        sentryId s ≠ onPartId t place := by
  simp only [List.disjoint_left, List.mem_map, List.mem_flatMap, List.mem_range,
    forall_exists_index, and_imp, forall_apply_eq_imp_iff₂, not_exists, not_and]
  exact ⟨fun h s hs t ht i hi he => h s hs t ht i hi he.symm,
    fun h s hs t ht i hi he => h s hs t ht i hi he.symm⟩

/-- Only a sentry and what another waits for, or two edges, can have the same identifier. -/
theorem nodup_generatedIds_iff (hs : c.Routed) :
    (c.allSentries.flatMap (generatedIds c)).Nodup ↔
      (∀ s ∈ c.allSentries, ∀ t ∈ c.allSentries, ∀ place < t.edges.length,
        sentryId s ≠ onPartId t place) ∧ c.numberedEnds.Nodup := by
  have hcriteria : ∀ x ∈ c.allSentries.map criterionId, ("sid-" : Text) <+: x :=
    List.forall_mem_map.2 fun s _ => criterionId_begins s
  have hshapes : ∀ x ∈ c.allSentries.map sentryShapeId, ("CMMNShape_" : Text) <+: x :=
    List.forall_mem_map.2 fun s _ => sentryShapeId_begins s
  have hsentries : ∀ x ∈ c.allSentries.map sentryId, ("sentry" : Text) <+: x :=
    List.forall_mem_map.2 fun s _ => sentryId_begins s
  have honParts : ∀ x ∈ c.allSentries.flatMap fun s =>
      (List.range s.edges.length).map (onPartId s), ("sentry" : Text) <+: x :=
    List.forall_mem_flatMap.2 fun s _ => List.forall_mem_map.2 fun i _ => onPartId_begins s i
  have hedges : ∀ x ∈ c.allSentries.flatMap fun s => s.edges.map (edgeId c s),
      ("CMMNEdge_" : Text) <+: x :=
    List.forall_mem_flatMap.2 fun s _ => List.forall_mem_map.2 fun e _ => edgeId_begins c s e
  have hnodup : (c.allSentries.map criterionId).Nodup ∧ (c.allSentries.map sentryShapeId).Nodup ∧
      (c.allSentries.map sentryId).Nodup :=
    ⟨nodup_map_sentryName hs "sid-", nodup_map_sentryName hs "CMMNShape_planItem",
      nodup_map_sentryName hs "sentry"⟩
  rw [(perm_generatedIds c).nodup_iff]
  simp only [List.nodup_append', List.disjoint_append_right,
    disjoint_sentryIds_onPartIds_iff, nodup_edgeIds_iff hs, hnodup, nodup_onPartIds hs,
    disjoint_of_beginnings (by decide) (by decide) hcriteria hshapes,
    disjoint_of_beginnings (by decide) (by decide) hcriteria hsentries,
    disjoint_of_beginnings (by decide) (by decide) hcriteria honParts,
    disjoint_of_beginnings (by decide) (by decide) hcriteria hedges,
    disjoint_of_beginnings (by decide) (by decide) hshapes hsentries,
    disjoint_of_beginnings (by decide) (by decide) hshapes honParts,
    disjoint_of_beginnings (by decide) (by decide) hshapes hedges,
    disjoint_of_beginnings (by decide) (by decide) hsentries hedges,
    disjoint_of_beginnings (by decide) (by decide) honParts hedges, true_and, and_true]
  exact and_comm

/-! ## Identifiers that are compared -/

/-- The identifiers of a stage or a task, by what it is, what they begin with, and its slug. -/
def idsOf (key : NodeKind × Text × Text) : List Text :=
  [Identifier.planItemId (key.2.1 ++ key.2.2), Identifier.shapeId (key.2.1 ++ key.2.2),
    match key.1 with
    | .stage => Identifier.stageId key.2.2
    | .task => key.2.1 ++ key.2.2]

/-- The nodes are those of the stages and of the tasks. -/
theorem perm_keys (hs : c.Routed) :
    (c.diagram.inOrder.map fun n => (n.kind, c.scope n, n.slug)).Perm
      (c.logic.stages.map (fun s => (.stage, c.case.name, s.slug)) ++
        c.logic.tasks.map fun t =>
          (.task, Identifier.scope ((c.logic.stageOf? t.slug).map (·.slug)) c.case.name, t.slug)) := by
  have hnodes : (c.diagram.inOrder.map fun n => (n.kind, c.scope n, n.slug)).Nodup := by
    refine List.Nodup.of_map (fun key => key.2.2) ?_
    rw [List.map_map]
    exact hs.diagram.nodup_inOrder hs.logic
  have hnames : (c.logic.stages.map (fun s => (NodeKind.stage, c.case.name, s.slug)) ++
      c.logic.tasks.map fun t => (NodeKind.task,
        Identifier.scope ((c.logic.stageOf? t.slug).map (·.slug)) c.case.name, t.slug)).Nodup := by
    refine List.Nodup.of_map (fun key => key.2.2) ?_
    rw [List.map_append, List.map_map, List.map_map]
    refine List.nodup_append.2 ⟨hs.logic.nodup_stages, hs.logic.nodup_slugs, ?_⟩
    intro x hx y hy
    obtain ⟨s, hmem, rfl⟩ := List.mem_map.1 hx
    rintro rfl
    exact (hs.logic.stage s hmem).slug_notMem hy
  refine (List.perm_ext_iff_of_nodup hnodes hnames).2 fun key => ?_
  simp only [List.mem_append, List.mem_map]
  constructor
  · rintro ⟨n, hn, rfl⟩
    rcases hs.diagram.shows_of_mem hs.logic hn with ⟨s, hmem, h⟩ | ⟨t, hmem, h⟩
    · refine .inl ⟨s, hmem, ?_⟩
      rw [h.kind, h.slug, Context.scope, h.parent]
      rfl
    · refine .inr ⟨t, hmem, ?_⟩
      rw [h.kind, h.slug, Context.scope, h.parent]
  · rintro (⟨s, hmem, rfl⟩ | ⟨t, hmem, rfl⟩)
    · obtain ⟨n, hn, h⟩ := hs.diagram.exists_showsStage hs.logic hmem
      refine ⟨n, hn, ?_⟩
      rw [h.kind, h.slug, Context.scope, h.parent]
      rfl
    · obtain ⟨n, hn, h⟩ := hs.diagram.exists_showsTask hs.logic hmem
      refine ⟨n, hn, ?_⟩
      rw [h.kind, h.slug, Context.scope, h.parent]

omit [Coordinate α] in
theorem listedIds_eq (c : Context α) :
    c.listedIds = scaffoldIds c ++
      (c.logic.stages.map (fun s => (NodeKind.stage, c.case.name, s.slug)) ++
        c.logic.tasks.map fun t => (NodeKind.task,
          Identifier.scope ((c.logic.stageOf? t.slug).map (·.slug)) c.case.name, t.slug)).flatMap
        idsOf := by
  rw [listedIds, Identifier.listed]
  simp only [List.map_append, List.map_flatMap, List.flatMap_append, List.flatMap_map,
    List.append_assoc]
  rfl

/-- The identifiers that are compared are those of the case and of the nodes. -/
theorem perm_listedIds (hs : c.Routed) (hroot : rootContainer ∉ c.diagram.inOrder.map (·.slug)) :
    (scaffoldIds c ++ c.diagram.inOrder.flatMap (nodeIds c)).Perm c.listedIds := by
  have hnodes : c.diagram.inOrder.flatMap (nodeIds c) =
      (c.diagram.inOrder.map fun n => (n.kind, c.scope n, n.slug)).flatMap idsOf := by
    rw [List.flatMap_map]
    refine List.flatMap_congr fun n hn => ?_
    have hne : n.slug ≠ rootContainer := fun h => hroot (List.mem_map.2 ⟨n, hn, h⟩)
    rw [nodeIds, nodeItemId, if_neg hne, definitionId]
    cases n.kind <;> simp [idsOf, scopedName]
  rw [hnodes, listedIds_eq]
  exact ((perm_keys hs).flatMap_right idsOf).append_left _

/-- The main stage and the nodes are defined by elements with different identifiers. -/
theorem nodup_definitionRefs (hs : c.Sound) :
    (c.case.mainStageId :: c.diagram.inOrder.map c.definitionId).Nodup := by
  have hlast : ∀ keys : List (NodeKind × Text × Text),
      (keys.map fun key => match key.1 with
        | .stage => Identifier.stageId key.2.2
        | .task => key.2.1 ++ key.2.2).Sublist (keys.flatMap idsOf) := by
    intro keys
    induction keys with
    | nil => exact .slnil
    | cons key keys ih =>
      rw [List.map_cons, List.flatMap_cons]
      exact .cons _ (.cons _ (ih.cons_cons _))
  have hmain : [c.case.mainStageId].Sublist (scaffoldIds c) :=
    List.singleton_sublist.2 (by simp [scaffoldIds])
  have hids := hs.ids
  have hlisted := listedIds_eq c
  rw [listedIds] at hlisted
  rw [hlisted] at hids
  have hnodup := (hmain.append (hlast _)).nodup hids
  rw [← (((perm_keys hs.toRouted).map _).append_left _).nodup_iff, List.map_map] at hnodup
  have hmap : c.diagram.inOrder.map c.definitionId = c.diagram.inOrder.map
      ((fun key : NodeKind × Text × Text => match key.1 with
        | .stage => Identifier.stageId key.2.2
        | .task => key.2.1 ++ key.2.2) ∘ fun n => (n.kind, c.scope n, n.slug)) := by
    refine List.map_congr_left fun n _ => ?_
    cases hk : n.kind <;> simp only [definitionId, Function.comp_apply, hk]
  rwa [hmap]

/-- No two nodes are defined by elements with one identifier. -/
theorem nodup_definitionIds (hs : c.Sound) : (c.diagram.inOrder.map c.definitionId).Nodup :=
  (List.nodup_cons.1 (nodup_definitionRefs hs)).2

/-! ## Identifiers of both sorts -/

omit [Coordinate α] in
theorem mem_generatedIds {s : Sentry α} {id : Text} :
    id ∈ generatedIds c s ↔ id = criterionId s ∨ id = sentryShapeId s ∨ id = sentryId s ∨
      (∃ place < s.edges.length, onPartId s place = id) ∨ ∃ e ∈ s.edges, edgeId c s e = id := by
  simp [generatedIds, sentryIds]

omit [Coordinate α] in
/-- What is made for a sentry ends with its number, except for what it waits for. -/
theorem generatedIds_end {s : Sentry α} {id : Text} (h : id ∈ generatedIds c s) :
    (∃ name : Text, id = name ++ Text.ofNat s.index) ∨
      ∃ place < s.edges.length, onPartId s place = id := by
  rcases mem_generatedIds.1 h with rfl | rfl | rfl | h | ⟨e, -, rfl⟩
  · exact .inl ⟨"sid-" ++ s.owner, (List.append_assoc ..).symm⟩
  · exact .inl ⟨"CMMNShape_planItem" ++ s.owner, (List.append_assoc ..).symm⟩
  · exact .inl ⟨"sentry" ++ s.owner, (List.append_assoc ..).symm⟩
  · exact .inr h
  · exact .inl ⟨_, rfl⟩

omit [Coordinate α] in
/-- What is made for a sentry ends with a digit, so it is no identifier of a stage. -/
theorem stage_notMem_generatedIds (s : Sentry α) (name : Text) :
    name ++ "stage" ∉ generatedIds c s := by
  have hdigit : ∀ (other : Text) (k : Nat), name ++ "stage" ≠ other ++ Text.ofNat k := by
    intro other k
    refine Text.append_ne_append_of_getLast? (by decide) (Text.ofNat_ne_nil k) ?_ _ _
    intro hlast
    have hmem := List.mem_of_getLast? hlast.symm
    exact absurd (Text.isDigit_of_mem_ofNat hmem).2 (by decide)
  intro h
  rcases generatedIds_end h with ⟨other, h⟩ | ⟨place, -, h⟩
  · exact hdigit other _ h
  · exact hdigit _ place h.symm

omit [Coordinate α] in
/-- Only the shape of a sentry begins otherwise than with `sid-`, `sentry` or `CMMNEdge_`. -/
theorem eq_sentryShapeId_of_mem_generatedIds {s : Sentry α} {beginning id : Text}
    (hbegins : beginning <+: id)
    (hother : ∀ other ∈ (["sid-", "sentry", "CMMNEdge_"] : List Text),
      ¬beginning <+: other ∧ ¬other <+: beginning)
    (h : id ∈ generatedIds c s) : id = sentryShapeId s := by
  have hne : ∀ other ∈ (["sid-", "sentry", "CMMNEdge_"] : List Text), ¬other <+: id :=
    fun other hmem ho => ne_of_beginnings (hother other hmem).1 (hother other hmem).2 hbegins ho rfl
  simp only [List.forall_mem_cons] at hne
  obtain ⟨hsid, hsentry, hedge, -⟩ := hne
  rcases mem_generatedIds.1 h with rfl | rfl | rfl | ⟨place, -, rfl⟩ | ⟨e, -, rfl⟩
  · exact absurd (criterionId_begins s) hsid
  · rfl
  · exact absurd (sentryId_begins s) hsentry
  · exact absurd (onPartId_begins s place) hsentry
  · exact absurd (edgeId_begins c s e) hedge

omit [Coordinate α] in
theorem planItem_notMem_generatedIds (s : Sentry α) (name : Text) :
    Identifier.planItemId name ∉ generatedIds c s := by
  intro h
  have hbegins : ("planItem" : Text) <+: Identifier.planItemId name := ⟨_, rfl⟩
  exact ne_of_beginnings (by decide) (by decide) hbegins (sentryShapeId_begins s)
    (eq_sentryShapeId_of_mem_generatedIds hbegins (by decide) h)

omit [Coordinate α] in
theorem diagram_notMem_generatedIds (s : Sentry α) : diagramId c ∉ generatedIds c s := by
  intro h
  have hbegins : ("CMMNDiagram_" : Text) <+: diagramId c := ⟨_, rfl⟩
  exact ne_of_beginnings (by decide) (by decide) hbegins (sentryShapeId_begins s)
    (eq_sentryShapeId_of_mem_generatedIds hbegins (by decide) h)

omit [Coordinate α] in
/-- Of what is made for a sentry only its shape can have the identifier of a shape. -/
theorem shape_mem_generatedIds {s : Sentry α} {name : Text} :
    Identifier.shapeId name ∈ generatedIds c s ↔ Identifier.shapeId name = sentryShapeId s := by
  have hbegins : ("CMMNShape_" : Text) <+: Identifier.shapeId name := ⟨_, rfl⟩
  exact ⟨eq_sentryShapeId_of_mem_generatedIds hbegins (by decide),
    fun h => mem_generatedIds.2 (.inr (.inl h))⟩

/-- The number of a sentry is less than three, so only what it waits for can have the identifier of
the plan model. -/
theorem planModel_mem_generatedIds (hs : c.Routed) {s : Sentry α} (h : s ∈ c.allSentries) :
    c.case.planModelId ∈ generatedIds c s ↔
      ∃ place < s.edges.length, onPartId s place = c.case.planModelId := by
  refine ⟨fun hmem => ?_, fun h => mem_generatedIds.2 (.inr (.inr (.inr (.inl h))))⟩
  rcases generatedIds_end hmem with ⟨name, he⟩ | h
  · have hlt := index_lt hs h
    refine absurd he (Text.append_ne_append_of_getLast? (by decide) (Text.ofNat_ne_nil _) ?_ _ _)
    have hcases : s.index = 0 ∨ s.index = 1 ∨ s.index = 2 := by omega
    rcases hcases with h | h | h <;> rw [h] <;> decide
  · exact h

/-! ## All identifiers -/

omit [Coordinate α] in
theorem elementIds_eq (c : Context α) :
    elementIds c = c.case.id :: diagramId c ::
      ((scaffoldIds c ++ c.diagram.inOrder.flatMap (nodeIds c)) ++
        c.allSentries.flatMap (generatedIds c)) := by
  simp [elementIds, allSentries]

omit [Coordinate α] in
/-- A node named like the main stage has a plan item with the identifier of the main one. -/
theorem root_notMem_of_nodup (h : (elementIds c).Nodup) :
    rootContainer ∉ c.diagram.inOrder.map (·.slug) := by
  intro hmem
  obtain ⟨n, hn, hslug⟩ := List.mem_map.1 hmem
  rw [elementIds_eq, List.nodup_cons, List.nodup_cons, List.nodup_append] at h
  have hdisjoint := (List.nodup_append.1 h.2.2.1).2.2
  refine hdisjoint (Identifier.planItemId c.case.mainItem) (by simp [scaffoldIds]) _
    (List.mem_flatMap.2 ⟨n, hn, List.mem_cons_self⟩) ?_
  rw [nodeItemId, if_pos hslug]

omit [Coordinate α] in
/-- The diagram has another identifier than the case and all that is there for the case. -/
theorem diagram_notMem_scaffoldIds (c : Context α) : diagramId c ∉ c.case.id :: scaffoldIds c := by
  have hlength : (diagramId c).length = 12 + c.case.id.length := by
    rw [diagramId, List.length_append]
    rfl
  have hcase : c.case.name.length < c.case.id.length := by
    simp only [Case.id, List.length_append]
    have hlowLine : ("_" : Text).length = 1 := rfl
    omega
  have hbegins : ("CMMNDiagram_" : Text) <+: diagramId c := ⟨_, rfl⟩
  simp only [scaffoldIds, List.mem_cons, List.not_mem_nil, or_false, not_or]
  refine ⟨?_, ?_, ?_, ?_, ?_, ?_⟩
  · intro h
    have := congrArg List.length h
    omega
  · intro h
    have hlen := congrArg List.length h
    rw [hlength, Case.planModelId, List.length_append] at hlen
    have h123 : ("123" : Text).length = 3 := rfl
    omega
  · exact ne_of_beginnings (by decide) (by decide) hbegins ⟨_, rfl⟩
  · intro h
    have hlen := congrArg List.length h
    rw [hlength, Case.mainStageId, List.length_append] at hlen
    have hstage : ("stage" : Text).length = 5 := rfl
    omega
  · exact ne_of_beginnings (by decide) (by decide) hbegins ⟨_, rfl⟩
  · exact ne_of_beginnings (by decide) (by decide) hbegins ⟨_, rfl⟩

/-- What is made for the sentries has no identifier of another element, if none of those that are
not compared is met. -/
theorem Context.Unambiguous.notMem_generatedIds (hu : c.Unambiguous) (hs : c.Routed) {id : Text}
    (hid : id ∈ scaffoldIds c ++ c.diagram.inOrder.flatMap (nodeIds c)) {s : Sentry α}
    (hmem : s ∈ c.allSentries) : id ∉ generatedIds c s := by
  intro h
  simp only [List.mem_append, scaffoldIds, List.mem_cons, List.not_mem_nil, or_false,
    List.mem_flatMap] at hid
  rcases hid with (rfl | rfl | rfl | rfl | rfl) | ⟨n, hn, hid⟩
  · obtain ⟨place, hplace, he⟩ := (planModel_mem_generatedIds hs hmem).1 h
    exact hu.planModel s hmem place hplace he.symm
  · exact hu.shape s hmem _ (by simp) (shape_mem_generatedIds.1 h)
  · exact stage_notMem_generatedIds s _ h
  · exact planItem_notMem_generatedIds s _ h
  · exact hu.shape s hmem _ (by simp) (shape_mem_generatedIds.1 h)
  · simp only [nodeIds, List.mem_cons, List.not_mem_nil, or_false] at hid
    rcases hid with rfl | rfl | rfl
    · exact planItem_notMem_generatedIds s _ h
    · refine hu.shape s hmem _ ?_ (shape_mem_generatedIds.1 h)
      exact List.mem_cons_of_mem _ (List.mem_cons_of_mem _ (List.mem_map.2 ⟨n, hn, rfl⟩))
    · cases hk : n.kind with
      | stage =>
        rw [definitionId, hk] at h
        exact stage_notMem_generatedIds s n.slug h
      | task => exact hu.taskGenerated s hmem n hn hk h

omit [Coordinate α] in
/-- The diagram has another identifier than the nodes, if it is none of a definition. -/
theorem Context.Unambiguous.diagramId_notMem_nodeIds (hu : c.Unambiguous) {n : Node α}
    (hn : n ∈ c.diagram.inOrder) : diagramId c ∉ nodeIds c n := by
  intro h
  have hbegins : ("CMMNDiagram_" : Text) <+: diagramId c := ⟨_, rfl⟩
  simp only [nodeIds, List.mem_cons, List.not_mem_nil, or_false] at h
  rcases h with h | h | h
  · exact ne_of_beginnings (by decide) (by decide) hbegins ⟨_, rfl⟩ h
  · exact ne_of_beginnings (by decide) (by decide) hbegins ⟨_, rfl⟩ h
  · exact hu.diagram n hn h.symm

theorem nodup_elementIds_of_unambiguous (hs : c.Sound) (hu : c.Unambiguous) :
    (elementIds c).Nodup := by
  have hlisted := perm_listedIds hs.toRouted hu.root
  have hdiagram := diagram_notMem_scaffoldIds c
  rw [List.mem_cons, not_or] at hdiagram
  rw [elementIds_eq, List.nodup_cons, List.nodup_cons, List.nodup_append]
  refine ⟨?_, ?_, hlisted.nodup_iff.2 hs.ids,
    (nodup_generatedIds_iff hs.toRouted).2 ⟨hu.onPart, hu.edge⟩, ?_⟩
  · rw [List.mem_cons, List.mem_append, hlisted.mem_iff, List.mem_flatMap, not_or, not_or]
    refine ⟨Ne.symm hdiagram.1, hu.case, ?_⟩
    rintro ⟨s, hmem, h⟩
    exact hu.caseGenerated s hmem h
  · rw [List.mem_append, List.mem_append, List.mem_flatMap, List.mem_flatMap, not_or, not_or]
    refine ⟨⟨hdiagram.2, ?_⟩, ?_⟩
    · rintro ⟨n, hn, h⟩
      exact hu.diagramId_notMem_nodeIds hn h
    · rintro ⟨s, -, h⟩
      exact diagram_notMem_generatedIds s h
  · rintro id hid _ hother rfl
    obtain ⟨s, hmem, h⟩ := List.mem_flatMap.1 hother
    exact hu.notMem_generatedIds hs.toRouted hid hmem h

theorem unambiguous_of_nodup (hs : c.Routed) (hnd : (elementIds c).Nodup) : c.Unambiguous := by
  have hroot := root_notMem_of_nodup hnd
  rw [elementIds_eq, List.nodup_cons, List.nodup_cons, List.nodup_append] at hnd
  obtain ⟨hcase, hdiagram, -, hgenerated, hdisjoint⟩ := hnd
  simp only [List.mem_cons, List.mem_append, not_or] at hcase hdiagram
  obtain ⟨honPart, hedge⟩ := (nodup_generatedIds_iff hs).1 hgenerated
  have hnode : ∀ n ∈ c.diagram.inOrder, ∀ id ∈ nodeIds c n,
      id ∈ scaffoldIds c ++ c.diagram.inOrder.flatMap (nodeIds c) := fun n hn id hid =>
    List.mem_append_right _ (List.mem_flatMap.2 ⟨n, hn, hid⟩)
  have hdiffer : ∀ id ∈ scaffoldIds c ++ c.diagram.inOrder.flatMap (nodeIds c),
      ∀ s ∈ c.allSentries, id ∉ generatedIds c s := fun id hid s hmem h =>
    hdisjoint id hid id (List.mem_flatMap.2 ⟨s, hmem, h⟩) rfl
  refine ⟨hroot, ?_, ?_, ?_, ?_, ?_, ?_, honPart, hedge⟩
  · rw [← (perm_listedIds hs hroot).mem_iff, List.mem_append, not_or]
    exact hcase.2.1
  · intro n hn h
    exact hdiagram.1.2 (List.mem_flatMap.2 ⟨n, hn, by simp [nodeIds, h]⟩)
  · intro s hmem h
    exact hcase.2.2 (List.mem_flatMap.2 ⟨s, hmem, h⟩)
  · intro s hmem n hn _
    exact hdiffer _ (hnode n hn _ (by simp [nodeIds])) s hmem
  · intro s hmem place hplace h
    refine hdiffer c.case.planModelId (by simp [scaffoldIds]) s hmem ?_
    exact (planModel_mem_generatedIds hs hmem).2 ⟨place, hplace, h.symm⟩
  · intro s hmem name hname h
    refine hdiffer (Identifier.shapeId name) ?_ s hmem (shape_mem_generatedIds.2 h)
    simp only [List.mem_cons, List.mem_map] at hname
    rcases hname with rfl | rfl | ⟨n, hn, rfl⟩
    · simp [scaffoldIds]
    · simp [scaffoldIds]
    · exact hnode n hn _ (by simp [nodeIds])

/-- The identifiers in a document differ exactly if those that are not compared, and yet can meet
others, do not. -/
theorem nodup_documentIds_iff (hs : c.Sound) : (documentIds c).Nodup ↔ c.Unambiguous := by
  rw [(perm_elementIds hs.toRouted).nodup_iff]
  exact ⟨unambiguous_of_nodup hs.toRouted, nodup_elementIds_of_unambiguous hs⟩

omit [Coordinate α] in
/-- Known texts are settled as they are. -/
theorem eq_map_ok_of_settle {drafts : List Draft} {texts : List Text}
    (h : List.Forall₂ (fun d t => settle d = .ok t) drafts texts) : drafts = texts.map .ok := by
  induction h with
  | nil => rfl
  | cons hsettle _ ih =>
    rw [List.map_cons, ih]
    rw [(settle_eq_ok_iff.1 hsettle).1]

/-- The identifiers in the tree of a document. -/
theorem values_tree (hs : c.Sound) {t : Xml.Node Text} (ht : tree c = .ok t) :
    t.values "id" = documentIds c := by
  have hsettled : (root c).values "id" = (t.values "id").map .ok :=
    eq_map_ok_of_settle (Xml.Node.values_traverse ht)
  rw [values_root hs.toRouted] at hsettled
  exact ((List.map_injective_iff.2 fun _ _ h => Except.ok.inj h) hsettled).symm

end Document

open Document

/-- The identifiers in a compiled document differ exactly if its context is unambiguous. -/
theorem compile_ids_nodup_iff {config : Config} {name : Json}
    {application : Except CompileError Application} {raw : Json} {compiled : Compiled}
    (h : compile config (Case.make name application) (Logic.parse raw) = .ok compiled) :
    ∃ case logic c t, Case.make name application = .ok case ∧ Logic.parse raw = .ok logic ∧
      prepare config case logic = .ok c ∧ tree c = .ok t ∧
      compiled.document = render config.prettyPrint t ∧
      ((t.values "id").Nodup ↔ c.Unambiguous) := by
  obtain ⟨case, logic, c, t, hcase, hlogic, hc, -, ht, rfl⟩ := compile_eq_ok_iff.1 h
  obtain ⟨hs, -, -, hconfig⟩ := sound_of_prepare (consistent_of_parse hlogic) hc
  refine ⟨case, logic, c, t, hcase, hlogic, hc, ht, by rw [hconfig], ?_⟩
  rw [values_tree hs ht]
  exact nodup_documentIds_iff hs

/-- Two tasks; in a case named `sentry` the second has the identifier of the sentry of the first. -/
def clash : Logic where
  tasks := [{ slug := "x", displayName := "X", outcomes := ["done"] },
    { slug := "x0", displayName := "Y", outcomes := ["done"] }]

/-- The value that holds `clash`. -/
def clashValue : Json :=
  .obj [("tasks", .arr
    [.obj [("slug", .str "x"), ("displayName", .str "X"), ("outcomes", .arr [.str "done"])],
      .obj [("slug", .str "x0"), ("displayName", .str "Y"), ("outcomes", .arr [.str "done"])]])]

/-- Such a case is compiled all the same. -/
theorem compile_ids_clash : ∃ compiled,
    compile {} (Case.make (.str "sentry") (.ok { identifier := "app" })) (Logic.parse clashValue) =
        .ok compiled ∧
      ∃ case logic c t, prepare {} case logic = .ok c ∧ tree c = .ok t ∧
        compiled.document = render true t ∧ ¬c.Unambiguous := by
  have hparse : Logic.parse clashValue = .ok clash := by rfl
  have hmake : Case.make (.str "sentry") (.ok { identifier := "app" }) =
      .ok ⟨"sentry", { identifier := "app" }⟩ := by rfl
  have hshared : (((prepare {} ⟨"sentry", { identifier := "app" }⟩ clash).toOption.bind
      fun c => (tree c).toOption).any fun t => !decide (t.values "id").Nodup) = true := by
    decide +kernel
  rw [Option.any_eq_true] at hshared
  obtain ⟨t, ht, hnodup⟩ := hshared
  obtain ⟨c, hc, ht⟩ := Option.bind_eq_some_iff.1 ht
  rw [toOption_eq_some_iff] at hc ht
  have hclash : c.logic = clash := (sound_of_prepare (consistent_of_parse hparse) hc).2.1
  have happrover : c.logic.unknownApprover? = none := by
    rw [hclash]
    exact (consistent_of_parse hparse).unknownApprover?_eq_none
  have hcompile := compile_eq_ok_iff.2 ⟨_, _, c, t, hmake, hparse, hc, happrover, ht, rfl⟩
  refine ⟨_, hcompile, ?_⟩
  obtain ⟨case, logic, c', t', hcase, hlogic, hc', ht', hdocument, hiff⟩ :=
    compile_ids_nodup_iff hcompile
  obtain rfl := Except.ok.inj (hmake.symm.trans hcase)
  obtain rfl := Except.ok.inj (hparse.symm.trans hlogic)
  obtain rfl := Except.ok.inj (hc.symm.trans hc')
  obtain rfl := Except.ok.inj (ht.symm.trans ht')
  refine ⟨_, _, c, t, hc, ht, hdocument, fun hu => ?_⟩
  simp [hiff.2 hu] at hnodup

end CasePlan
