import CasePlan.Proofs.Document.Elements
import CasePlan.Proofs.Document.Payload
import CasePlan.Proofs.Document.Settling
import CasePlan.Proofs.Xml.Resolution
import CasePlan.Proofs.Xml.Selection

/-!
# The vocabulary of documents

Every element of a document has a name and attributes with names, all of them in the namespaces
that the root declares; it holds elements only, or one text; and task listeners are those of the
flow or hand over rules for outcomes.

* `Document.IsKnown`: the elements that documents are made from; `Document.IsGood` collects them in
  trees, `isSure_of_within` finds them there.
* `isGood_caseElement`, `isGood_diagramElement`: documents are made from nothing else.
* `isLegible_of_isKnown`, `within_traverse`: once their texts are settled they can be written and
  read.
-/

namespace CasePlan.Document

open Xml Xml.Node

open Validation (sectionEnd)

/-- The namespaces in force in a document. -/
def documentScope : Scope := (declarations namespaces).reverse

/-- Whether a name and the names of attributes can be written, and have namespaces. -/
def isWritable (name : Text) (keys : List Text) : Bool :=
  isName name && keys.all isName && decide keys.Nodup && isNamed documentScope name keys

/-- The name of task listeners. -/
def listenerName : Name := ⟨some engineNamespace, "taskListener"⟩

/-- A piece that can be written and read, once its text is known. -/
def IsSure : Piece → Prop
  | .element .. => True
  | .text t => ∀ s, t = .ok s → s ≠ []
  | .cdata t => ∀ s, t = .ok s → ¬sectionEnd <:+: s
  | _ => False

/-- The rules for outcomes, as listeners hand them over. -/
def statusRules (outcomes : List Text) : Piece :=
  element "flowable:field" [("name", "variables")]
    [element "flowable:string" [] [.cdata (.ok (Outcome.write outcomes))]]

/-- A listener of the flow, or one of the status with rules for outcomes. -/
def IsListener (attributes : List (Text × Draft)) (children : List Piece) : Prop :=
  ∃ event class? : Text,
    attributes = ([("event", .ok event), ("class", .ok class?)] : List (Text × Draft)) ∧
    (class? = flowListener ∨
      class? = statusListener ∧
        ∃ outcomes, Outcome.AreScalar outcomes ∧ children = [statusRules outcomes])

/-- An element that documents are made from. -/
structure IsKnown (name : Text) (attributes : List (Text × Draft)) (children : List Piece) :
    Prop where
  /-- Its names can be written and have namespaces. -/
  names : isWritable name (attributes.map Prod.fst) = true
  /-- What it holds can be written. -/
  pieces : ∀ c ∈ children, IsSure c
  /-- No two runs of text follow one another in it. -/
  apart : AreApart children
  /-- If it is a task listener, it is one that documents have. -/
  listener : nameIn documentScope name = listenerName → IsListener attributes children

/-- An element that is made from such elements. -/
def IsGood (depth : Nat) (c : Piece) : Prop :=
  (∃ name attributes children, c = .element name attributes children) ∧ c.Within IsKnown depth

/-- In a piece made of known elements everything is sure, and all elements are known. -/
theorem isSure_of_within {depth : Nat} {m k : Piece} (h : m.Within IsKnown depth) (hm : IsSure m)
    (hk : k ∈ m.subtrees) : IsSure k ∧ ∀ name attributes children,
      k = .element name attributes children → IsKnown name attributes children := by
  induction depth generalizing m with
  | zero =>
    cases m with
    | element name attributes children => exact h.elim
    | _ =>
      rw [List.mem_singleton.1 hk]
      exact ⟨hm, nofun⟩
  | succ depth ih =>
    cases m with
    | element name attributes children =>
      rw [subtrees_element, List.mem_cons, List.mem_flatMap] at hk
      rcases hk with rfl | ⟨d, hd, hk⟩
      · refine ⟨trivial, fun name attributes children he => ?_⟩
        obtain ⟨rfl, rfl, rfl⟩ := element.inj he
        exact h.1
      · exact ih (h.2 d hd) (h.1.pieces d hd) hk
    | _ =>
      rw [List.mem_singleton.1 hk]
      exact ⟨hm, nofun⟩

/-! ## Elements with elements and elements with a text -/

theorem IsGood.mono {c : Piece} {j k : Nat} (h : IsGood j c) (hjk : j ≤ k) : IsGood k c :=
  ⟨h.1, h.2.imp id hjk⟩

theorem areApart_of_isGood {depth : Nat} {cs : List Piece} (h : ∀ c ∈ cs, IsGood depth c) :
    AreApart cs := by
  refine areApart_of_isText fun c hc => ?_
  obtain ⟨⟨name, attributes, children, rfl⟩, -⟩ := h c hc
  rfl

/-- An element that holds elements, and is no listener. -/
theorem isGood_element {depth : Nat} {name : Text} {attributes : List (Text × Draft)}
    {children : List Piece}
    (h : (isWritable name (attributes.map Prod.fst) &&
      nameIn documentScope name ≠ listenerName) = true)
    (hc : ∀ c ∈ children, IsGood depth c) : IsGood (depth + 1) (.element name attributes children) := by
  rw [Bool.and_eq_true, decide_eq_true_eq] at h
  refine ⟨⟨_, _, _, rfl⟩, ⟨h.1, fun c hmem => ?_, areApart_of_isGood hc, fun hl => absurd hl h.2⟩,
    fun c hmem => (hc c hmem).2⟩
  obtain ⟨⟨name, attributes, children, rfl⟩, -⟩ := hc c hmem
  trivial

theorem isGood_empty {depth : Nat} {name : Text} {attributes : List (Text × Draft)}
    (h : (isWritable name (attributes.map Prod.fst) &&
      nameIn documentScope name ≠ listenerName) = true) :
    IsGood (depth + 1) (.element name attributes []) :=
  isGood_element h (List.forall_mem_nil _)

/-- An element that holds one text, and is no listener. -/
theorem isGood_single {depth : Nat} {name : Text} {attributes : List (Text × Draft)} {c : Piece}
    (h : (isWritable name (attributes.map Prod.fst) &&
      nameIn documentScope name ≠ listenerName) = true)
    (hc : IsSure c) (hwithin : c.Within IsKnown depth) :
    IsGood (depth + 1) (.element name attributes [c]) := by
  rw [Bool.and_eq_true, decide_eq_true_eq] at h
  refine ⟨⟨_, _, _, rfl⟩, ⟨h.1, fun d hd => ?_, ⟨fun _ m hm => absurd hm (by simp), trivial⟩,
    fun hl => absurd hl h.2⟩, fun d hd => ?_⟩
  · rwa [List.mem_singleton.1 hd]
  · rwa [List.mem_singleton.1 hd]

/-! ## The plan model -/

variable {α : Type}

theorem isGood_stageExtensions : IsGood 2 stageExtensions :=
  isGood_element rfl
    (List.forall_mem_singleton.2 (isGood_empty rfl))

theorem isGood_repetitionRule (c : Context α) (slug : Text) : IsGood 3 (repetitionRule c slug) := by
  have hcondition : ∀ limit : Draft, (∀ s, limit = .ok s → ¬sectionEnd <:+: s) →
      IsGood 1 (element "condition" [] [.cdata limit]) :=
    fun limit h => isGood_single rfl h trivial
  refine isGood_element rfl (List.forall_mem_singleton.2 (isGood_element rfl
    (List.forall_mem_cons.2 ⟨isGood_empty rfl,
      List.forall_mem_singleton.2 (hcondition _ fun s hs => ?_)⟩)))
  split at hs
  · exact absurd hs (by simp)
  · obtain rfl := Except.ok.inj hs
    exact Expression.not_isInfix_repetition _

theorem isGood_planItem (c : Context α) (n : Node α) : IsGood 4 (planItem c n) := by
  refine isGood_element rfl (List.forall_mem_append.2 ⟨fun d hd => ?_, fun d hd => ?_⟩)
  · split at hd
    · rw [List.mem_singleton.1 hd]
      exact isGood_repetitionRule c n.slug
    · exact absurd hd List.not_mem_nil
  · obtain ⟨s, -, rfl⟩ := List.mem_map.1 hd
    exact isGood_empty rfl

theorem isGood_sentry (c : Context α) {s : Sentry α} (h : ¬sectionEnd <:+: s.condition) :
    IsGood 3 (sentry c s) := by
  refine isGood_element rfl (List.forall_mem_append.2 ⟨fun d hd => ?_, List.forall_mem_singleton.2 ?_⟩)
  · obtain ⟨⟨e, place⟩, -, rfl⟩ := List.mem_map.1 hd
    refine isGood_element rfl (List.forall_mem_singleton.2 (isGood_single rfl (fun t ht => ?_) trivial))
    obtain rfl := Except.ok.inj ht
    cases e.event <;> decide
  · refine isGood_element rfl (List.forall_mem_singleton.2 ?_)
    split
    · exact isGood_empty rfl
    · refine isGood_single rfl (fun t ht => ?_) trivial
      obtain rfl := Except.ok.inj ht
      exact h

/-- The rules for outcomes that may stand in CDATA sections. -/
theorem isGood_statusRules {outcomes : List Text} (h : ∀ o ∈ outcomes, IsOutcome o) :
    IsGood 2 (statusRules outcomes) := by
  refine isGood_element rfl (List.forall_mem_singleton.2 (isGood_single rfl (fun t ht => ?_) trivial))
  obtain rfl := Except.ok.inj ht
  refine Outcome.not_isInfix_write fun o ho hfound => ?_
  exact absurd (Text.contains_eq_true_iff.2 hfound) (by rw [(h o ho).noSectionEnd]; decide)

theorem areScalar_of_isOutcome {outcomes : List Text} (h : ∀ o ∈ outcomes, IsOutcome o) :
    Outcome.AreScalar outcomes :=
  fun o ho c hc => Utf8.isSurrogate_of_isXmlChar (List.all_eq_true.1 (h o ho).isXmlText c hc)

theorem isGood_taskListener {depth : Nat} {event class? : Text} {children : List Piece}
    (hc : ∀ c ∈ children, IsGood depth c)
    (h : IsListener [("event", .ok event), ("class", .ok class?)] children) :
    IsGood (depth + 1) (taskListener event class? children) := by
  refine ⟨⟨_, _, _, rfl⟩, ⟨rfl, fun c hmem => ?_, areApart_of_isGood hc, fun _ => h⟩,
    fun c hmem => (hc c hmem).2⟩
  obtain ⟨⟨name, attributes, children, rfl⟩, -⟩ := hc c hmem
  trivial

/-- A human task can be written with its attributes, whichever of them it has. -/
theorem isWritable_humanTask [Coordinate α] (c : Context α) (n : Node α) (t : Task) :
    (isWritable "humanTask" (((humanTaskAttributes c n t).map
        fun (name, value) => (name, (.ok value : Draft))).map Prod.fst) &&
      nameIn documentScope "humanTask" ≠ listenerName) = true := by
  unfold humanTaskAttributes optionalAttribute
  split <;> split <;> rfl

theorem isGood_humanTask [Coordinate α] {c : Context α} (hs : c.Sound) (n : Node α) :
    IsGood 5 (humanTask c n) := by
  have hflow : ∀ event : Text, IsGood 3 (taskListener event flowListener []) := fun event =>
    isGood_taskListener (List.forall_mem_nil _) ⟨event, flowListener, rfl, .inl rfl⟩
  unfold humanTask
  split
  · exact isGood_empty rfl
  · next t ht =>
    have houtcomes := (hs.logic.task t (Logic.mem_of_task?_eq_some ht).1).outcomes
    refine isGood_element (isWritable_humanTask c n t) (List.forall_mem_singleton.2 (isGood_element rfl ?_))
    simp only [List.forall_mem_cons, List.not_mem_nil, false_implies, implies_true, and_true]
    have hinitiator : IsGood 1 (element "modeler:flowable-idm-initiator" [] [.cdata (.ok "true")]) := by
      refine isGood_single rfl (fun t ht => ?_) trivial
      obtain rfl := Except.ok.inj ht
      exact Text.not_isInfix_of_notMem (c := CodePoint.ofChar '>') (by decide) (by decide)
    refine ⟨hinitiator.mono (by decide), hflow _, ?_, hflow _⟩
    exact isGood_taskListener (List.forall_mem_singleton.2 (isGood_statusRules houtcomes))
      ⟨"complete", statusListener, rfl, .inr ⟨rfl, _, areScalar_of_isOutcome houtcomes, rfl⟩⟩

variable [Coordinate α] {c : Context α}

/-- The condition of a sentry joins those of some transitions. -/
theorem exists_condition_eq (hs : c.Sound) {n : Node α} (hn : n ∈ c.diagram.inOrder) {s : Sentry α}
    (h : s ∈ c.sentriesOf n) : ∃ ts : List Transition, (∀ t ∈ ts, t ∈ c.logic.transitions) ∧
      s.condition = Expression.condition (ts.filterMap (·.condition)) := by
  have hguarded := hs.guardedBy hn
  cases hk : s.kind with
  | start => exact ⟨[], List.forall_mem_nil _, (hguarded.start s h hk).1⟩
  | transition =>
    exact ⟨_, fun t ht => (Logic.mem_external.1 ht).1, (hguarded.transition s h hk).2⟩
  | selfLoop => exact ⟨_, fun t ht => (Logic.mem_loops.1 ht).1, (hguarded.selfLoop s h hk).2⟩

/-- The condition of a sentry is on outcomes that may stand in CDATA sections. -/
theorem not_isInfix_sentry (hs : c.Sound) {n : Node α} (hn : n ∈ c.diagram.inOrder) {s : Sentry α}
    (h : s ∈ c.sentriesOf n) : ¬sectionEnd <:+: s.condition := by
  obtain ⟨ts, hts, hcondition⟩ := exists_condition_eq hs hn h
  rw [hcondition]
  refine Expression.not_isInfix_condition fun d hd hfound => ?_
  obtain ⟨t, ht, hd⟩ := List.mem_filterMap.1 hd
  have houtcome := hs.logic.isOutcome_of_transition (hts t ht) hd
  exact absurd (Text.contains_eq_true_iff.2 hfound) (by rw [houtcome.noSectionEnd]; decide)

/-- The content of a stage, if the nested stages are good. -/
theorem isGood_stageContentWith (hs : c.Sound) {members : List (Node α)}
    (hmem : ∀ n ∈ members, n ∈ c.diagram.inOrder) {nested : List Piece} {depth : Nat}
    (hdepth : 5 ≤ depth) (hnested : ∀ d ∈ nested, IsGood depth d) :
    ∀ d ∈ stageContentWith c members nested, IsGood depth d := by
  unfold stageContentWith
  simp only [List.forall_mem_append, List.forall_mem_cons, List.forall_mem_map, List.forall_mem_flatMap]
  refine ⟨⟨⟨⟨?_, fun n _ => ?_⟩, fun n hn s hmem' => ?_⟩, hnested⟩, fun n hn => ?_⟩
  · exact isGood_stageExtensions.mono (by omega)
  · exact (isGood_planItem c n).mono (by omega)
  · exact (isGood_sentry c (not_isInfix_sentry hs (hmem n hn) hmem')).mono (by omega)
  · exact (isGood_humanTask hs n).mono (by omega)

theorem isGood_nestedStages (hs : c.Sound) :
    ∀ d ∈ nestedStages c c.diagram.nodes, IsGood 6 d := by
  rw [nestedStages_eq_flatMap, List.forall_mem_flatMap]
  intro n hn d hd
  rw [nestedStage_eq] at hd
  split at hd
  · rw [List.mem_singleton.1 hd,
      nestedStages_eq_nil c fun m hm => kind_of_mem_children hs.toRouted hn hm]
    refine isGood_element rfl (isGood_stageContentWith hs ?_ (by decide) (List.forall_mem_nil _))
    exact fun m hm => Diagram.mem_inOrder.2 (.inr ⟨n, hn, hm⟩)
  · exact absurd hd List.not_mem_nil

theorem isGood_caseElement (hs : c.Sound) : IsGood 9 (caseElement c) := by
  have hstage := isGood_stageContentWith hs (fun n hn => Diagram.mem_inOrder.2 (.inl hn)) (by decide)
    (isGood_nestedStages hs)
  refine isGood_element rfl (List.forall_mem_singleton.2 (isGood_element rfl
    (List.forall_mem_cons.2 ⟨?_, List.forall_mem_singleton.2 (isGood_element rfl hstage)⟩)))
  exact isGood_empty rfl

/-! ## The diagram -/

theorem isGood_shape (id : Text) (ref : Draft) (b : Box α) : IsGood 2 (shape id ref b) :=
  isGood_element rfl (List.forall_mem_cons.2 ⟨isGood_empty rfl,
    List.forall_mem_singleton.2 (isGood_empty rfl)⟩)

theorem isGood_edge (c : Context α) (s : Sentry α) (e : Edge α) : IsGood 3 (edge c s e) := by
  refine isGood_element rfl ?_
  simp only [List.cons_append, List.forall_mem_append, List.forall_mem_cons, List.forall_mem_map]
  refine ⟨isGood_element rfl ?_, fun p _ => ?_, ?_, List.forall_mem_nil _⟩
  · exact List.forall_mem_cons.2 ⟨isGood_empty rfl,
      List.forall_mem_singleton.2 (isGood_empty rfl)⟩
  · exact isGood_empty rfl
  · exact isGood_empty rfl

theorem isGood_diagramElement (hs : c.Sound) : IsGood 5 (diagramElement c) := by
  have hshapes : ∀ ns, ∀ d ∈ memberShapes c ns, IsGood 3 d := by
    intro ns
    simp only [memberShapes, List.forall_mem_append, List.forall_mem_map, List.forall_mem_flatMap]
    exact ⟨fun n _ => (isGood_shape _ _ _).mono (by decide),
      fun n _ s _ => (isGood_shape _ _ _).mono (by decide)⟩
  have hedges : ∀ ns, ∀ d ∈ memberEdges c ns, IsGood 3 d := by
    intro ns
    simp only [memberEdges, List.forall_mem_map, List.forall_mem_flatMap]
    exact fun n _ s _ e _ => isGood_edge c s e
  refine isGood_element rfl (List.forall_mem_singleton.2 (isGood_element rfl ?_))
  simp only [List.cons_append, List.forall_mem_append, List.forall_mem_cons]
  exact ⟨(isGood_shape _ _ _).mono (by decide), (isGood_shape _ _ _).mono (by decide),
    forall_mem_drawAll hs.toRouted fun ns _ => hshapes ns,
    forall_mem_drawAll hs.toRouted fun ns _ => hedges ns⟩

/-! ## Settled documents -/

omit [Coordinate α]

/-- Settling leaves the names of attributes, and gives them texts that XML can carry. -/
theorem traverseAttributes_settle {as : List (Text × Draft)} {bs : List (Text × Text)}
    (h : traverseAttributes settle as = .ok bs) :
    bs.map Prod.fst = as.map Prod.fst ∧ ∀ b ∈ bs, b.2.isXmlText = true := by
  induction as generalizing bs with
  | nil =>
    obtain rfl := Except.ok.inj h
    exact ⟨rfl, List.forall_mem_nil _⟩
  | cons a as ih =>
    obtain ⟨value, rest, hvalue, hrest, rfl⟩ := traverseAttributes_cons_eq_ok h
    obtain ⟨hkeys, hvalues⟩ := ih hrest
    exact ⟨by rw [List.map_cons, List.map_cons, hkeys],
      List.forall_mem_cons.2 ⟨(settle_eq_ok_iff.1 hvalue).2, hvalues⟩⟩

theorem isText_traverse {n : Piece} {m : Xml.Node Text} (h : traverse settle n = .ok m) :
    m.isText = n.isText := by
  cases n with
  | element name attributes children =>
    obtain ⟨as, ms, -, -, rfl⟩ := traverse_element_eq_ok h
    rfl
  | text t =>
    obtain ⟨s, -, rfl⟩ := map_eq_ok_iff.1 h
    rfl
  | cdata t =>
    obtain ⟨s, -, rfl⟩ := map_eq_ok_iff.1 h
    rfl
  | _ =>
    obtain rfl := Except.ok.inj h
    rfl

theorem isPlain_of_isSure {n : Piece} {m : Xml.Node Text} (hn : IsSure n)
    (h : traverse settle n = .ok m) : m.IsPlain := by
  cases n with
  | element name attributes children =>
    obtain ⟨as, ms, -, -, rfl⟩ := traverse_element_eq_ok h
    trivial
  | text t =>
    obtain ⟨s, hs, rfl⟩ := map_eq_ok_iff.1 h
    obtain ⟨rfl, hxml⟩ := settle_eq_ok_iff.1 hs
    exact ⟨hn s rfl, hxml⟩
  | cdata t =>
    obtain ⟨s, hs, rfl⟩ := map_eq_ok_iff.1 h
    obtain ⟨rfl, hxml⟩ := settle_eq_ok_iff.1 hs
    exact ⟨hn s rfl, hxml⟩
  | _ => exact hn.elim

theorem forall₂_traverseAll {ns : List Piece} {ms : List (Xml.Node Text)}
    (h : traverseAll settle ns = .ok ms) :
    List.Forall₂ (fun n m => traverse settle n = .ok m) ns ms := by
  induction ns generalizing ms with
  | nil =>
    obtain rfl := Except.ok.inj h
    exact .nil
  | cons n ns ih =>
    obtain ⟨m, rest, hm, hrest, rfl⟩ := traverseAll_cons_eq_ok h
    exact .cons hm (ih hrest)

theorem areApart_traverse {ns : List Piece} {ms : List (Xml.Node Text)}
    (h : List.Forall₂ (fun n m => traverse settle n = .ok m) ns ms) (hns : AreApart ns) :
    AreApart ms := by
  induction h with
  | nil => trivial
  | cons hm hrest ih =>
    refine ⟨fun htext m hmem => ?_, ih hns.2⟩
    rw [isText_traverse hm] at htext
    cases hrest with
    | nil => exact absurd hmem (by simp)
    | cons hk _ =>
      obtain rfl := Option.some.inj hmem
      rw [isText_traverse hk]
      exact hns.1 htext _ rfl

/-- What settled elements are: they can be written and read, and their names have namespaces. -/
def IsSettled (name : Text) (attributes : List (Text × Text)) (children : List (Xml.Node Text)) :
    Prop :=
  IsLegible name attributes children ∧ IsNamed documentScope name attributes children

theorem isSettled_of_isKnown {name : Text} {as : List (Text × Draft)} {cs : List Piece}
    {bs : List (Text × Text)} {ms : List (Xml.Node Text)} (h : IsKnown name as cs)
    (has : traverseAttributes settle as = .ok bs) (hcs : traverseAll settle cs = .ok ms) :
    IsSettled name bs ms := by
  have hnames := h.names
  obtain ⟨hkeys, hvalues⟩ := traverseAttributes_settle has
  have hall := forall₂_traverseAll hcs
  rw [← hkeys] at hnames
  simp only [isWritable, Bool.and_eq_true, decide_eq_true_eq, List.all_eq_true] at hnames
  obtain ⟨⟨⟨hname, hkey⟩, hnodup⟩, hnamed⟩ := hnames
  refine ⟨⟨hname, fun a ha => hkey _ (List.mem_map_of_mem ha), hnodup, hvalues, fun m hm => ?_,
    areApart_traverse hall h.apart⟩, hnamed⟩
  obtain ⟨n, hn, hmn⟩ : ∃ n ∈ cs, traverse settle n = .ok m :=
    exists_mem_left_of_forall₂ hall hm
  exact isPlain_of_isSure (h.pieces n hn) hmn

/-- A tree of known elements is settled as one of settled elements. -/
theorem within_traverse {depth : Nat} {n : Piece} {m : Xml.Node Text}
    (h : n.Within IsKnown depth) (hm : traverse settle n = .ok m) : m.Within IsSettled depth := by
  induction depth generalizing n m with
  | zero =>
    cases n with
    | element name attributes children => exact h.elim
    | text t =>
      obtain ⟨s, -, rfl⟩ := map_eq_ok_iff.1 hm
      trivial
    | cdata t =>
      obtain ⟨s, -, rfl⟩ := map_eq_ok_iff.1 hm
      trivial
    | _ =>
      obtain rfl := Except.ok.inj hm
      trivial
  | succ depth ih =>
    cases n with
    | element name attributes children =>
      obtain ⟨as, ms, has, hms, rfl⟩ := traverse_element_eq_ok hm
      refine ⟨isSettled_of_isKnown h.1 has hms, fun k hk => ?_⟩
      obtain ⟨n, hn, hkn⟩ := exists_mem_left_of_forall₂ (forall₂_traverseAll hms) hk
      exact ih (h.2 n hn) hkn
    | text t =>
      obtain ⟨s, -, rfl⟩ := map_eq_ok_iff.1 hm
      trivial
    | cdata t =>
      obtain ⟨s, -, rfl⟩ := map_eq_ok_iff.1 hm
      trivial
    | _ =>
      obtain rfl := Except.ok.inj hm
      trivial

end CasePlan.Document
