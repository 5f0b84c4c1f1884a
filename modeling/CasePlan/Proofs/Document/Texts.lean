import CasePlan.Proofs.Decimal.Written
import CasePlan.Proofs.Document.Reference
import CasePlan.Proofs.Document.Vocabulary
import CasePlan.Proofs.Text.Name

/-!
# The texts of documents

Every text of a document in the making is known, and XML can carry it, if it can carry the names of
the case and of its application and the default assignee.

* `isXmlText_of_isCaseName`, `Application.isCarried_of_ofJson`: names that are accepted are such
  names.
* `Carries`: a piece all of whose texts are settled.
* `carries_planItem`, `carries_sentry`, `carries_humanTask`, `carries_shape`, `carries_edge`: the
  pieces of a document.
* `carries_root`, `exists_tree`: so documents are settled; `isCarried_of_tree`: what documents that
  are settled say of the application.
* `exists_compile_of_carried`: so cases are compiled.
-/

namespace CasePlan

/-! ## Names from outside -/

/-- XML can carry the texts of an application. -/
structure Application.IsCarried (a : Application) : Prop where
  /-- It can carry its identifier. -/
  identifier : a.identifier.isXmlText = true
  /-- It can carry its short name. -/
  slug : a.slug.isXmlText = true

theorem Application.check_eq_ok_iff {a b : Application} :
    a.check = .ok b ↔ a = b ∧ a.IsCarried := by
  unfold Application.check
  constructor
  · intro h
    split at h
    · exact absurd h (by simp)
    · split at h
      · exact absurd h (by simp)
      · next hi hs => exact ⟨Except.ok.inj h, by simpa using hi, by simpa using hs⟩
  · rintro ⟨rfl, hi, hs⟩
    simp [hi, hs]

/-- An application that is read is one that XML can carry. -/
theorem Application.isCarried_of_ofJson {value : Json} {a : Application}
    (h : Application.ofJson value = .ok a) : a.IsCarried := by
  have hcheck : ∀ {b : Application}, b.check = .ok a → a.IsCarried := by
    intro b hb
    obtain ⟨rfl, hcarried⟩ := Application.check_eq_ok_iff.1 hb
    exact hcarried
  unfold Application.ofJson at h
  split at h
  · exact absurd h (by simp)
  · exact hcheck h
  · split at h
    · simp only at h
      split at h
      · split at h
        · exact hcheck h
        · exact absurd h (by simp)
      · exact hcheck h
    · exact absurd h (by simp)
  · exact absurd h (by simp)

theorem isXmlChar_of_isNamePart {c : CodePoint} (h : isNamePart c = true) :
    Text.isXmlChar c = true := by
  simp only [isNamePart, isNameStart, Bool.or_eq_true, Bool.and_eq_true, decide_eq_true_eq] at h
  rcases h with (((h | h) | rfl) | h) | rfl
  · simp only [Text.isXmlChar, Bool.or_eq_true, Bool.and_eq_true, decide_eq_true_eq, beq_iff_eq]
    omega
  · simp only [Text.isXmlChar, Bool.or_eq_true, Bool.and_eq_true, decide_eq_true_eq, beq_iff_eq]
    omega
  · decide
  · exact Text.isXmlChar_of_isDigit h
  · decide

/-- XML can carry the name of a case: its letters, and the line feed that may follow them. -/
theorem isXmlText_of_isCaseName {t : Text} (h : isCaseName t = true) : t.isXmlText = true := by
  have hall := Text.all_of_isNameOf isCaseLetter_of_isNamePart (isNameOf_of_isCaseName h)
  refine List.all_eq_true.2 fun c hc => ?_
  rcases Bool.or_eq_true_iff.1 (List.all_eq_true.1 hall c hc) with hpart | hfeed
  · exact isXmlChar_of_isNamePart hpart
  · obtain rfl := of_decide_eq_true hfeed
    rfl

namespace Document

open Xml Xml.Node

/-! ## Pieces whose texts are settled -/

/-- All texts of a piece are known, and XML can carry them. -/
def Carries (k : Piece) : Prop := ∀ d ∈ k.texts, ∃ t, settle d = .ok t

theorem carries_of_known {name : Text} {attributes : List (Text × Draft)} {children : List Piece}
    (h : ∀ a ∈ attributes, ∃ t, settle a.2 = .ok t) (hc : ∀ k ∈ children, Carries k) :
    Carries (.element name attributes children) := by
  rw [Carries, texts_element, List.forall_mem_append, List.forall_mem_flatMap, List.forall_mem_map]
  exact ⟨h, hc⟩

theorem exists_settle {t : Text} (h : t.isXmlText = true) : ∃ s, settle (.ok t) = .ok s :=
  ⟨t, settle_eq_ok_iff.2 ⟨rfl, h⟩⟩

/-- An element whose attributes are known. -/
theorem carries_element {name : Text} {attributes : List (Text × Text)} {children : List Piece}
    (h : ∀ a ∈ attributes, a.2.isXmlText = true) (hc : ∀ k ∈ children, Carries k) :
    Carries (element name attributes children) :=
  carries_of_known (List.forall_mem_map.2 fun a ha => exists_settle (h a ha)) hc

theorem carries_empty {name : Text} {attributes : List (Text × Text)}
    (h : ∀ a ∈ attributes, a.2.isXmlText = true) : Carries (element name attributes []) :=
  carries_element h (List.forall_mem_nil _)

theorem carries_text {t : Text} (h : t.isXmlText = true) : Carries (.text (.ok t)) :=
  List.forall_mem_singleton.2 (exists_settle h)

theorem carries_cdata {t : Text} (h : t.isXmlText = true) : Carries (.cdata (.ok t)) :=
  List.forall_mem_singleton.2 (exists_settle h)

/-! ## Names and identifiers -/

variable {α : Type} [Coordinate α]

/-- What a document is made from is sound, and XML can carry the names that come from outside as far
as they are written. -/
structure Context.Carriable (c : Context α) : Prop extends c.Sound where
  /-- It can carry the name of the case. -/
  caseName : c.case.name.isXmlText = true
  /-- It can carry the texts of the application. -/
  application : c.case.application.IsCarried
  /-- It can carry to whom each task is given. -/
  assignee : ∀ t ∈ c.logic.tasks, (textOr t.assignee c.config.assignee).isXmlText = true

/-- What a document is made from is sound, and XML can carry the names that come from outside. -/
structure Context.Carried (c : Context α) : Prop extends c.Sound where
  /-- It can carry the name of the case. -/
  caseName : c.case.name.isXmlText = true
  /-- It can carry the texts of the application. -/
  application : c.case.application.IsCarried
  /-- It can carry the default assignee. -/
  assignee : c.config.assignee.isXmlText = true

/-- With a default assignee that XML can carry, every task is given to someone it can carry. -/
theorem Context.Carried.carriable {c : Context α} (hc : c.Carried) : c.Carriable :=
  ⟨hc.toSound, hc.caseName, hc.application, fun t ht =>
    isXmlText_textOr (hc.logic.task t ht).assignee hc.assignee⟩

variable {c : Context α} {n : Node α} {s : Sentry α}

theorem isXmlText_slug (hs : c.Sound) (hn : n ∈ c.diagram.inOrder) : n.slug.isXmlText = true := by
  rcases hs.diagram.shows_of_mem hs.logic hn with ⟨s, hmem, h⟩ | ⟨t, hmem, h⟩
  · exact h.slug ▸ (hs.logic.stage s hmem).slug.isXmlText
  · exact h.slug ▸ (hs.logic.task t hmem).slug.isXmlText

theorem isXmlText_name (hs : c.Sound) (hn : n ∈ c.diagram.inOrder) : n.name.isXmlText = true := by
  rcases hs.diagram.shows_of_mem hs.logic hn with ⟨s, hmem, h⟩ | ⟨t, hmem, h⟩
  · exact h.name ▸ (hs.logic.stage s hmem).displayName
  · exact h.name ▸ (hs.logic.task t hmem).displayName.isXmlText

/-- The identifiers of a node begin with the name of the case or with the slug of the stage that
holds the node. -/
theorem scope_eq_caseName_or_slug (hs : c.Sound) (hn : n ∈ c.diagram.inOrder) :
    c.scope n = c.case.name ∨ ∃ m ∈ c.diagram.inOrder, c.scope n = m.slug := by
  unfold Context.scope Identifier.scope
  split
  · next first rest hparent =>
    rcases Diagram.mem_inOrder.1 hn with hn | ⟨m, hm, hn⟩
    · rw [hs.diagram.parent_eq_none hn] at hparent
      exact absurd hparent (by simp)
    · obtain ⟨member, hshows⟩ := hs.diagram.showsMember hm hn
      rw [hshows.parent] at hparent
      exact .inr ⟨m, Diagram.mem_inOrder.2 (.inl hm), (Option.some.inj hparent).symm⟩
  · exact .inl rfl

theorem isXmlText_scope (hc : c.Carriable) (hn : n ∈ c.diagram.inOrder) :
    (c.scope n).isXmlText = true := by
  rcases scope_eq_caseName_or_slug hc.toSound hn with h | ⟨m, hm, h⟩
  · exact h ▸ hc.caseName
  · exact h ▸ isXmlText_slug hc.toSound hm

theorem isXmlText_caseId (hc : c.Carriable) : c.case.id.isXmlText = true := by
  simp only [Case.id, Text.isXmlText_append]
  exact ⟨⟨hc.caseName, by decide⟩, hc.application.identifier⟩

theorem isXmlText_mainItem (hc : c.Carriable) : c.case.mainItem.isXmlText = true :=
  Text.isXmlText_append.2 ⟨hc.application.slug, hc.caseName⟩

theorem isXmlText_mainStageId (hc : c.Carriable) : c.case.mainStageId.isXmlText = true :=
  Text.isXmlText_append.2 ⟨isXmlText_caseId hc, by decide⟩

theorem isXmlText_planModelId (hc : c.Carriable) : c.case.planModelId.isXmlText = true :=
  Text.isXmlText_append.2 ⟨hc.caseName, by decide⟩

theorem isXmlText_planItemId {name : Text} (h : name.isXmlText = true) :
    (Identifier.planItemId name).isXmlText = true :=
  Text.isXmlText_append.2 ⟨by decide, h⟩

theorem isXmlText_shapeId {name : Text} (h : name.isXmlText = true) :
    (Identifier.shapeId name).isXmlText = true :=
  Text.isXmlText_append.2 ⟨by decide, h⟩

theorem isXmlText_definitionId (hc : c.Carriable) (hn : n ∈ c.diagram.inOrder) :
    (c.definitionId n).isXmlText = true := by
  have hslug := isXmlText_slug hc.toSound hn
  unfold Context.definitionId
  split
  · exact Text.isXmlText_append.2 ⟨hslug, by decide⟩
  · exact Text.isXmlText_append.2 ⟨isXmlText_scope hc hn, hslug⟩

/-- The plan item of a node has an identifier. -/
theorem exists_settle_planItemId (hc : c.Carriable) (hn : n ∈ c.diagram.inOrder) :
    ∃ t, settle (c.planItemId n.slug) = .ok t := by
  rw [planItemId_eq hc.toRouted hn]
  refine exists_settle (isXmlText_planItemId (Text.isXmlText_ite (isXmlText_mainItem hc) ?_))
  exact Text.isXmlText_append.2 ⟨isXmlText_scope hc hn, isXmlText_slug hc.toSound hn⟩

theorem isXmlText_sentryName (hs : c.Sound) (hn : n ∈ c.diagram.inOrder) (h : s ∈ c.sentriesOf n) :
    (sentryName s).isXmlText = true := by
  rw [sentryName, (hs.guardedBy hn).owner s h]
  exact Text.isXmlText_append.2 ⟨isXmlText_slug hs hn, Text.isXmlText_ofNat _⟩

/-- The plan item that an edge leaves has an identifier, and its ends can be named. -/
theorem exists_settle_source (hc : c.Carriable) (hn : n ∈ c.diagram.inOrder) (h : s ∈ c.sentriesOf n)
    {e : Edge α} (he : e ∈ s.edges) :
    (∃ t, settle (c.planItemId e.source) = .ok t) ∧ e.source.isXmlText = true := by
  obtain ⟨n?, hleaves⟩ := exists_leaves hc.toSound hn h he
  cases n? with
  | none =>
    rw [hleaves.2.1, Context.planItemId, if_pos rfl]
    exact ⟨exists_settle (isXmlText_planItemId (isXmlText_mainItem hc)), by decide⟩
  | some m =>
    have hm := hleaves.mem_inOrder
    rw [hleaves.1]
    exact ⟨exists_settle_planItemId hc hm, isXmlText_slug hc.toSound hm⟩

/-! ## The plan model -/

theorem carries_stageExtensions : Carries stageExtensions :=
  carries_element (by decide) (List.forall_mem_singleton.2 (carries_empty (by decide)))

/-- A task has a bound on its repetitions. -/
theorem carries_repetitionRule (hs : c.Sound) (hn : n ∈ c.diagram.inOrder) (hk : n.kind = .task) :
    Carries (repetitionRule c n.slug) := by
  obtain ⟨t, -, ht⟩ := exists_task? hs.toRouted hn hk
  unfold repetitionRule
  rw [ht]
  refine carries_element (List.forall_mem_nil _) (List.forall_mem_singleton.2 (carries_element
    (by decide) (List.forall_mem_cons.2 ⟨carries_empty (List.forall_mem_nil _), ?_⟩)))
  exact List.forall_mem_singleton.2 (carries_element (List.forall_mem_nil _)
    (List.forall_mem_singleton.2 (carries_cdata (Expression.isXmlText_repetition _))))

theorem carries_criterion (hs : c.Sound) (hn : n ∈ c.diagram.inOrder) (h : s ∈ c.sentriesOf n) :
    Carries (criterion s) := by
  have hname := isXmlText_sentryName hs hn h
  refine carries_empty (List.forall_mem_cons.2 ⟨?_, List.forall_mem_singleton.2 ?_⟩)
  · exact Text.isXmlText_append.2 ⟨by decide, hname⟩
  · exact Text.isXmlText_append.2 ⟨by decide, hname⟩

theorem carries_planItem (hc : c.Carriable) (hn : n ∈ c.diagram.inOrder) :
    Carries (planItem c n) := by
  refine carries_of_known ?_
    (List.forall_mem_append.2 ⟨fun k hk => ?_, List.forall_mem_map.2 fun s h => ?_⟩)
  · simp only [List.forall_mem_cons, List.not_mem_nil, false_implies, implies_true, and_true]
    exact ⟨exists_settle_planItemId hc hn, exists_settle (isXmlText_name hc.toSound hn),
      exists_settle (isXmlText_definitionId hc hn)⟩
  · split at hk
    · next hrepeats =>
      rw [List.mem_singleton.1 hk]
      rw [repeats, Bool.and_eq_true, decide_eq_true_eq] at hrepeats
      exact carries_repetitionRule hc.toSound hn hrepeats.1
    · exact absurd hk List.not_mem_nil
  · exact carries_criterion hc.toSound hn h

/-- XML can carry the conditions of sentries. -/
theorem isXmlText_sentryCondition (hs : c.Sound) (hn : n ∈ c.diagram.inOrder)
    (h : s ∈ c.sentriesOf n) : s.condition.isXmlText = true := by
  obtain ⟨ts, hts, hcondition⟩ := exists_condition_eq hs hn h
  rw [hcondition]
  refine Expression.isXmlText_condition fun d hd => ?_
  obtain ⟨t, ht, hd⟩ := List.mem_filterMap.1 hd
  exact (hs.logic.isOutcome_of_transition (hts t ht) hd).isXmlText

theorem carries_sentry (hc : c.Carriable) (hn : n ∈ c.diagram.inOrder) (h : s ∈ c.sentriesOf n) :
    Carries (sentry c s) := by
  have hname := isXmlText_sentryName hc.toSound hn h
  have honPart : ∀ x ∈ s.edges.zipIdx, Carries (onPart c s x) := by
    rintro ⟨e, place⟩ hx
    have hevent : e.event.word.isXmlText = true := by cases e.event <;> decide
    have hstandard : Carries (element "standardEvent" [] [.text (.ok e.event.word)]) :=
      carries_element (List.forall_mem_nil _) (List.forall_mem_singleton.2 (carries_text hevent))
    refine carries_of_known (List.forall_mem_cons.2 ⟨exists_settle ?_,
      List.forall_mem_singleton.2 ?_⟩) (List.forall_mem_singleton.2 hstandard)
    · simp only [onPartId, Text.isXmlText_append]
      exact ⟨⟨⟨by decide, hname⟩, by decide⟩, Text.isXmlText_ofNat place⟩
    · exact (exists_settle_source hc hn h (List.fst_mem_of_mem_zipIdx hx)).1
  rw [sentry_eq]
  refine carries_element (List.forall_mem_singleton.2 (Text.isXmlText_append.2 ⟨by decide, hname⟩))
    (List.forall_mem_append.2 ⟨List.forall_mem_map.2 honPart, List.forall_mem_singleton.2 ?_⟩)
  refine carries_element (List.forall_mem_nil _) (List.forall_mem_singleton.2
    (carries_element (List.forall_mem_nil _) fun k hk => ?_))
  split at hk
  · exact absurd hk List.not_mem_nil
  · rw [List.mem_singleton.1 hk]
    exact carries_cdata (isXmlText_sentryCondition hc.toSound hn h)

theorem isXmlText_of_mem_optionalAttribute {name : Text} {value : Option Text}
    (h : ∀ t ∈ value, t.isXmlText = true) :
    ∀ a ∈ optionalAttribute name value, a.2.isXmlText = true := by
  unfold optionalAttribute
  split
  · exact List.forall_mem_singleton.2 (h _ rfl)
  · exact List.forall_mem_nil _

/-- The human task of a node has all its texts. -/
theorem carries_humanTask (hc : c.Carriable) (hn : n ∈ c.diagram.inOrder) (hk : n.kind = .task) :
    Carries (humanTask c n) := by
  obtain ⟨t, hmem, ht⟩ := exists_task? hc.toRouted hn hk
  have hsound := hc.logic.task t hmem
  unfold humanTask
  rw [ht]
  refine carries_element ?_
    (List.forall_mem_singleton.2 (carries_element (List.forall_mem_nil _) ?_))
  · simp only [humanTaskAttributes, List.forall_mem_append, List.forall_mem_cons, List.not_mem_nil,
      false_implies, implies_true, and_true]
    exact ⟨⟨⟨⟨isXmlText_definitionId hc hn, isXmlText_name hc.toSound hn,
        hc.assignee t hmem⟩,
      isXmlText_of_mem_optionalAttribute hsound.candidateGroups⟩,
      isXmlText_of_mem_optionalAttribute hsound.dueDate⟩,
      isXmlText_textOr hsound.formKey
        (Text.isXmlText_append.2 ⟨hsound.slug.isXmlText, by decide⟩), by decide⟩
  · have hrules := Outcome.isXmlText_write (areScalar_of_isOutcome hsound.outcomes)
    simp only [List.forall_mem_cons, List.not_mem_nil, false_implies, implies_true, and_true]
    refine ⟨carries_element (List.forall_mem_nil _) (List.forall_mem_singleton.2
        (carries_cdata (by decide))), carries_empty (by decide), ?_, carries_empty (by decide)⟩
    refine carries_element (by decide) (List.forall_mem_singleton.2
      (carries_element (by decide) (List.forall_mem_singleton.2 ?_)))
    exact carries_element (List.forall_mem_nil _)
      (List.forall_mem_singleton.2 (carries_cdata hrules))

/-- The content of a stage, if the nested stages are settled. -/
theorem carries_stageContentWith (hc : c.Carriable) {members : List (Node α)}
    (hmem : ∀ n ∈ members, n ∈ c.diagram.inOrder) {nested : List Piece}
    (hnested : ∀ k ∈ nested, Carries k) : ∀ k ∈ stageContentWith c members nested, Carries k := by
  unfold stageContentWith
  simp only [List.forall_mem_append, List.forall_mem_cons, List.forall_mem_map,
    List.forall_mem_flatMap]
  refine ⟨⟨⟨⟨carries_stageExtensions, fun n hn => carries_planItem hc (hmem n hn)⟩,
    fun n hn s h => carries_sentry hc (hmem n hn) h⟩, hnested⟩, fun n hn => ?_⟩
  obtain ⟨hn, hk⟩ := List.mem_filter.1 hn
  exact carries_humanTask hc (hmem n hn) (of_decide_eq_true hk)

theorem carries_nestedStages (hc : c.Carriable) :
    ∀ k ∈ nestedStages c c.diagram.nodes, Carries k := by
  rw [nestedStages_eq_flatMap, List.forall_mem_flatMap]
  intro n hn k hk
  have hmem : n ∈ c.diagram.inOrder := Diagram.mem_inOrder.2 (.inl hn)
  rw [nestedStage_eq_nestedStageOf hc.toRouted hn] at hk
  split at hk
  · rw [List.mem_singleton.1 hk]
    refine carries_element (List.forall_mem_cons.2 ⟨?_, List.forall_mem_singleton.2
      (isXmlText_name hc.toSound hmem)⟩) (carries_stageContentWith hc ?_ (List.forall_mem_nil _))
    · exact Text.isXmlText_append.2 ⟨isXmlText_slug hc.toSound hmem, by decide⟩
    · exact fun m hm => Diagram.mem_inOrder.2 (.inr ⟨n, hn, hm⟩)
  · exact absurd hk List.not_mem_nil

theorem carries_caseElement (hc : c.Carriable) : Carries (caseElement c) := by
  have hcase := isXmlText_caseId hc
  have hmain := isXmlText_mainItem hc
  have hstage := isXmlText_mainStageId hc
  have hcontent := carries_stageContentWith hc (fun n hn => Diagram.mem_inOrder.2 (.inl hn))
    (carries_nestedStages hc)
  refine carries_element ?_ (List.forall_mem_singleton.2 (carries_element ?_
    (List.forall_mem_cons.2 ⟨carries_empty ?_, List.forall_mem_singleton.2
      (carries_element ?_ hcontent)⟩)))
  all_goals simp only [List.forall_mem_cons, List.not_mem_nil, false_implies, implies_true,
    and_true]
  · exact ⟨hcase, hcase, by decide⟩
  · exact ⟨isXmlText_planModelId hc, by decide, by decide⟩
  · exact ⟨isXmlText_planItemId hmain, hmain, hstage⟩
  · exact ⟨hstage, hcase⟩

/-! ## The diagram -/

variable [Coordinate.Legible α]

theorem isXmlText_of_mem_place (p : Point α) : ∀ a ∈ place p, a.2.isXmlText = true :=
  List.forall_mem_cons.2 ⟨Coordinate.Legible.isXmlText_written _,
    List.forall_mem_singleton.2 (Coordinate.Legible.isXmlText_written _)⟩

theorem carries_shape {id : Text} {ref : Draft} (hid : id.isXmlText = true)
    (href : ∃ t, settle ref = .ok t) (b : Box α) : Carries (shape id ref b) := by
  refine carries_of_known (List.forall_mem_cons.2 ⟨exists_settle hid,
    List.forall_mem_singleton.2 href⟩) (List.forall_mem_cons.2 ⟨carries_empty ?_,
      List.forall_mem_singleton.2 (carries_empty (List.forall_mem_nil _))⟩)
  simp only [List.forall_mem_cons, List.not_mem_nil, false_implies, implies_true, and_true]
  exact ⟨Coordinate.Legible.isXmlText_written _, Coordinate.Legible.isXmlText_written _,
    Coordinate.Legible.isXmlText_written _, Coordinate.Legible.isXmlText_written _⟩

theorem carries_edge (hc : c.Carriable) (hn : n ∈ c.diagram.inOrder) (h : s ∈ c.sentriesOf n)
    {e : Edge α} (he : e ∈ s.edges) : Carries (edge c s e) := by
  obtain ⟨href, hsource⟩ := exists_settle_source hc hn h he
  have htarget : e.target.isXmlText = true := by
    rw [(hc.guardedBy hn).target s h e he]
    exact isXmlText_slug hc.toSound hn
  refine carries_of_known ?_ ?_
  · simp only [List.forall_mem_cons, List.not_mem_nil, false_implies, implies_true, and_true]
    refine ⟨exists_settle ?_, href, exists_settle ?_⟩
    · simp only [Text.isXmlText_append]
      exact ⟨⟨⟨⟨by decide, Text.isXmlText_ite (isXmlText_mainItem hc) hsource⟩, by decide⟩,
        htarget⟩, Text.isXmlText_ofNat _⟩
    · exact Text.isXmlText_append.2 ⟨by decide, isXmlText_sentryName hc.toSound hn h⟩
  · simp only [List.cons_append, List.forall_mem_append, List.forall_mem_cons, List.forall_mem_map,
      List.not_mem_nil, false_implies, implies_true, and_true]
    refine ⟨carries_element (List.forall_mem_nil _) ?_, fun p _ => ?_, ?_⟩
    · simp only [List.forall_mem_cons, List.not_mem_nil, false_implies, implies_true, and_true]
      exact ⟨carries_empty (List.forall_mem_cons.2 ⟨by decide, isXmlText_of_mem_place _⟩),
        carries_empty (List.forall_mem_cons.2 ⟨by decide, isXmlText_of_mem_place _⟩)⟩
    · exact carries_empty (isXmlText_of_mem_place p)
    · exact carries_empty (List.forall_mem_nil _)

theorem carries_diagramElement (hc : c.Carriable) : Carries (diagramElement c) := by
  have hshapes : ∀ ns, (∀ n ∈ ns, n ∈ c.diagram.inOrder) → ∀ k ∈ memberShapes c ns, Carries k := by
    intro ns hns
    simp only [memberShapes, List.forall_mem_append, List.forall_mem_map, List.forall_mem_flatMap]
    refine ⟨fun n hn =>
        carries_shape (isXmlText_shapeId ?_) (exists_settle_planItemId hc (hns n hn)) _,
      fun n hn s h => carries_shape ?_ (exists_settle ?_) _⟩
    · exact Text.isXmlText_append.2
        ⟨isXmlText_scope hc (hns n hn), isXmlText_slug hc.toSound (hns n hn)⟩
    · exact Text.isXmlText_append.2 ⟨by decide, isXmlText_sentryName hc.toSound (hns n hn) h⟩
    · exact Text.isXmlText_append.2 ⟨by decide, isXmlText_sentryName hc.toSound (hns n hn) h⟩
  have hedges : ∀ ns, (∀ n ∈ ns, n ∈ c.diagram.inOrder) → ∀ k ∈ memberEdges c ns, Carries k := by
    intro ns hns
    simp only [memberEdges, List.forall_mem_map, List.forall_mem_flatMap]
    exact fun n hn s h e he => carries_edge hc (hns n hn) h he
  refine carries_element (List.forall_mem_nil _)
    (List.forall_mem_singleton.2 (carries_element ?_ ?_))
  · exact List.forall_mem_singleton.2 (Text.isXmlText_append.2 ⟨by decide, isXmlText_caseId hc⟩)
  · simp only [List.cons_append, List.forall_mem_append, List.forall_mem_cons]
    exact ⟨carries_shape (isXmlText_shapeId hc.caseName)
        (exists_settle (isXmlText_planModelId hc)) _,
      carries_shape (isXmlText_shapeId (isXmlText_mainItem hc))
        (exists_settle (isXmlText_planItemId (isXmlText_mainItem hc))) _,
      forall_mem_drawAll hc.toRouted hshapes, forall_mem_drawAll hc.toRouted hedges⟩

/-- All texts of a document are known, and XML can carry them. -/
theorem carries_root (hc : c.Carriable) : Carries (root c) :=
  carries_element (by decide) (List.forall_mem_cons.2
    ⟨carries_caseElement hc, List.forall_mem_singleton.2 (carries_diagramElement hc)⟩)

/-- So a document has a tree. -/
theorem Context.Carriable.exists_tree (hc : c.Carriable) : ∃ t, tree c = .ok t :=
  exists_traverse (carries_root hc)

theorem exists_tree (hc : c.Carried) : ∃ t, tree c = .ok t := hc.carriable.exists_tree

omit [Coordinate.Legible α] in
/-- The names from outside that a document with a tree is written with. -/
theorem isCarried_of_tree {t : Xml.Node Text} (ht : tree c = .ok t) :
    c.case.name.isXmlText = true ∧ c.case.application.IsCarried := by
  have hsettled : ∀ {d : Text}, (.ok d : Draft) ∈ (caseElement c).texts → d.isXmlText = true := by
    intro d hd
    have hroot : (.ok d : Draft) ∈ (root c).texts := by
      rw [root, element, texts_element]
      exact List.mem_append_right _ (List.mem_flatMap.2 ⟨_, List.mem_cons_self, hd⟩)
    obtain ⟨s, hs⟩ := exists_of_traverse ht _ hroot
    obtain ⟨he, hx⟩ := settle_eq_ok_iff.1 hs
    obtain rfl := Except.ok.inj he
    exact hx
  have hid : c.case.id.isXmlText = true := hsettled (by simp [caseElement, element, texts_element])
  have hitem : c.case.mainItem.isXmlText = true :=
    hsettled (by simp [caseElement, element, texts_element])
  obtain ⟨hstart, hidentifier⟩ := Text.isXmlText_append.1 hid
  exact ⟨(Text.isXmlText_append.1 hstart).1, hidentifier, (Text.isXmlText_append.1 hitem).1⟩

end Document

/-- A case is compiled if its identifiers differ and XML can carry the names from outside. -/
theorem exists_compile_of_carried (config : Config) {case? : Except CompileError Case}
    {case : Case} {raw : Json} {logic : Logic} (hcase : case? = .ok case)
    (hlogic : Logic.parse raw = .ok logic) (hids : Identifier.check logic case = .ok ())
    (hname : case.name.isXmlText = true) (happlication : case.application.IsCarried)
    (hassignee : config.assignee.isXmlText = true) :
    ∃ compiled, compile config case? (Logic.parse raw) = .ok compiled := by
  have hconsistent := consistent_of_parse hlogic
  obtain ⟨c, hprepare, -, -⟩ := exists_prepare config hconsistent hids
  obtain ⟨hs, rfl, rfl, rfl⟩ := sound_of_prepare hconsistent hprepare
  obtain ⟨t, ht⟩ := Document.exists_tree ⟨hs, hname, happlication, hassignee⟩
  exact ⟨_, compile_eq_ok_iff.2 ⟨c.case, c.logic, c, t, hcase, hlogic, hprepare,
    hconsistent.unknownApprover?_eq_none, ht, rfl⟩⟩

end CasePlan
