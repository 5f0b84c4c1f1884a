import CasePlan.Proofs.Document.Texts

/-!
# Nothing fails after the checks

Once a description, the names and the identifiers are accepted, a case is laid out, routed and
written.

* `hasLines_nodeSentries`: every edge has a line of at least two and at most four points.
* `Context.Complete`: everything that is looked up is found, and everything that is written can be.
* `complete_of_carried`: what is accepted is complete.
* `exists_compiled_of_check`: so it is compiled.
-/

namespace CasePlan

/-! ## Lines -/

namespace Routing

variable {α : Type} [Coordinate α]

/-- The edges of a sentry have lines of two to four points. -/
def HasLines (s : Sentry α) : Prop :=
  ∀ e ∈ s.edges, 2 ≤ e.waypoints.length ∧ e.waypoints.length ≤ 4

theorem hasLines_startSentry (node : Node α) (container : Text) (origin : Point α) (index : Nat) :
    HasLines (startSentry node container origin index) := by
  refine List.forall_mem_singleton.2 ?_
  show 2 ≤ 3 ∧ 3 ≤ 4
  decide

theorem hasLines_singleSentry (node source : Node α) (counts : SideCounts) (index : Nat)
    (condition : Text) : HasLines (singleSentry node source counts index condition).1 := by
  refine List.forall_mem_singleton.2 ?_
  show 2 ≤ 3 ∧ 3 ≤ 4
  decide

theorem hasLines_sharedSentry (node : Node α) (sources : List (Node α)) (counts : SideCounts)
    (index : Nat) (condition : Text) :
    HasLines (sharedSentry node sources counts index condition).1 := by
  refine List.forall_mem_map.2 fun source _ => ?_
  show 2 ≤ 3 ∧ 3 ≤ 4
  decide

theorem hasLines_loopSentry (node : Node α) (counts : SideCounts) (index : Nat) (condition : Text) :
    HasLines (loopSentry node counts index condition) := by
  refine List.forall_mem_singleton.2 ?_
  show 2 ≤ 4 ∧ 4 ≤ 4
  decide

theorem hasLines_nodeSentries (node : Node α) (waits : Bool) (container : Container α)
    (external loops : List Transition) (sources : List (Node α)) :
    ∀ s ∈ nodeSentries node waits container external loops sources, HasLines s := by
  intro s hs
  cases made_of_mem_nodeSentries hs with
  | start => exact hasLines_startSentry node container.slug container.origin 0
  | single index condition _ => exact hasLines_singleSentry _ _ _ _ _
  | several index condition _ => exact hasLines_sharedSentry _ _ _ _ _
  | loop counts index condition _ _ => exact hasLines_loopSentry _ _ _ _

end Routing

open Routing

section

variable {α : Type} [Coordinate α] {logic : Logic} {d : Diagram α}

/-- All edges of a routed diagram have lines of two to four points. -/
theorem hasLines_route (hd : d.Depicts logic) (hc : logic.Consistent)
    {routed : List (Text × List (Sentry α))} (h : route logic d = .ok routed) :
    ∀ entry ∈ routed, ∀ s ∈ entry.2, HasLines s := by
  rw [route_eq_ok hd hc] at h
  obtain rfl := Except.ok.inj h
  rw [List.forall_mem_flatMap]
  intro container _ entry hentry
  obtain ⟨x, -, rfl⟩ := List.mem_map.1 hentry
  exact hasLines_nodeSentries _ _ _ _ _ _

/-! ## What is looked up -/

/-- Every slug of a task leads to the task. -/
theorem Logic.Consistent.isSome_task? (hc : logic.Consistent) {slug : Text}
    (h : slug ∈ logic.slugs) : (logic.task? slug).isSome = true := by
  obtain ⟨t, -, -, ht⟩ := hc.exists_task? h
  rw [ht]
  rfl

end

namespace Document

open Xml Xml.Node

open Validation (sectionEnd)

variable {α : Type} [Coordinate α]

/-! ## Complete contexts -/

/-- Everything that is looked up for a document is found, and everything that is written in it can
be written.  Corners are not looked up: a box has them by its place and size
(`Layout.corners_of_layOut`). -/
structure Context.Complete (c : Context α) : Prop where
  /-- Every member of a stage is a task. -/
  members : ∀ s ∈ c.logic.stages, ∀ slug ∈ s.members, (c.logic.task? slug).isSome = true
  /-- Every member of a pattern is one, so that there are outcomes to approve with. -/
  patterns : ∀ p ∈ c.logic.patterns, ∀ slug ∈ p.members, (c.logic.task? slug).isSome = true
  /-- The ends of transitions have a place among the tasks, a node and a container. -/
  ends : ∀ t ∈ c.logic.transitions, ∀ slug ∈ [t.source, t.target],
    (c.logic.position? slug).isSome = true ∧ (c.diagram.find? slug).isSome = true ∧
      (containerOf? c.diagram.containers slug).isSome = true
  /-- Nodes are found by their slugs, and so are their sentries and the tasks that they stand
  for. -/
  nodes : ∀ n ∈ c.diagram.inOrder, c.diagram.find? n.slug = some n ∧
    (Table.get? n.slug c.sentries).isSome = true ∧
      (n.kind = .task → (c.logic.task? n.slug).isSome = true)
  /-- Every edge leaves a plan item with an identifier, and has a line of two to four points. -/
  edges : ∀ entry ∈ c.sentries, ∀ s ∈ entry.2, HasLines s ∧
    ∀ e ∈ s.edges, ∃ id, c.planItemId e.source = .ok id
  /-- Elements and attributes have names. -/
  names : ∀ name attributes children, .element name attributes children ∈ (root c).subtrees →
    isName name = true ∧ ∀ a ∈ attributes, isName a.1 = true
  /-- All texts are known, and XML can carry them. -/
  texts : ∀ d ∈ (root c).texts, ∃ t, d = .ok t ∧ t.isXmlText = true
  /-- No section holds the mark of its end. -/
  sections : ∀ t, .cdata (.ok t) ∈ (root c).subtrees → ¬sectionEnd <:+: t

variable {c : Context α}

/-- The slugs of tasks have a place among the tasks, a node and a container. -/
theorem isSome_of_mem_slugs (hs : c.Sound) {slug : Text} (h : slug ∈ c.logic.slugs) :
    (c.logic.position? slug).isSome = true ∧ (c.diagram.find? slug).isSome = true ∧
      (containerOf? c.diagram.containers slug).isSome = true := by
  obtain ⟨n, hn, rfl, hfind⟩ := hs.diagram.find?_task hs.logic h
  refine ⟨Logic.isSome_position? h, ?_, ?_⟩
  · rw [hfind]
    rfl
  · exact Diagram.isSome_containerOf? (c.diagram.perm_inOrder.mem_iff.2 hn)

/-- Every node has an entry among the sentries. -/
theorem isSome_get?_sentries (hs : c.Sound) {n : Node α} (hn : n ∈ c.diagram.inOrder) :
    (Table.get? n.slug c.sentries).isSome = true := by
  obtain ⟨entry, hentry, hslug, -⟩ := exists_mem_left_of_forall₂ hs.sentries.flip hn
  rw [← hslug, Table.get?_eq_some_of_mem hs.nodup_keys hentry]
  rfl

/-- The pieces of a document are sure, and its elements have names. -/
theorem isSure_of_mem_root (hs : c.Sound) {k : Piece} (hk : k ∈ (root c).subtrees) :
    IsSure k ∧ ∀ name attributes children, k = .element name attributes children →
      isName name = true ∧ ∀ a ∈ attributes, isName a.1 = true := by
  have hknown : ∀ {depth : Nat} {m : Piece}, IsGood depth m → k ∈ m.subtrees →
      IsSure k ∧ ∀ name attributes children, k = .element name attributes children →
        isName name = true ∧ ∀ a ∈ attributes, isName a.1 = true := by
    rintro depth _ ⟨⟨_, _, _, rfl⟩, hwithin⟩ hmem
    obtain ⟨hsure, helement⟩ := isSure_of_within hwithin trivial hmem
    refine ⟨hsure, fun name attributes children he => ?_⟩
    have hnames := (helement name attributes children he).names
    simp only [isWritable, Bool.and_eq_true, List.all_eq_true, List.mem_map] at hnames
    exact ⟨hnames.1.1.1, fun a ha => hnames.1.1.2 a.1 ⟨a, ha, rfl⟩⟩
  rw [root, element, subtrees_element, List.mem_cons, List.mem_flatMap] at hk
  rcases hk with rfl | ⟨m, hm, hk⟩
  · refine ⟨trivial, fun name attributes children he => ?_⟩
    obtain ⟨rfl, rfl, -⟩ := element.inj he
    exact ⟨by decide, by decide⟩
  · rcases List.mem_cons.1 hm with rfl | hm
    · exact hknown (isGood_caseElement hs) hk
    · rw [List.mem_singleton.1 hm] at hk
      exact hknown (isGood_diagramElement hs) hk

/-- What a document is made from is complete, if it is routed and XML can carry the names from
outside. -/
theorem complete_of_carried [Coordinate.Legible α] (hc : c.Carried)
    (hrouted : route c.logic c.diagram = .ok c.sentries) : c.Complete where
  members s hs slug h := hc.logic.isSome_task? ((hc.logic.stage s hs).members_subset slug h)
  patterns p hp slug h := hc.logic.isSome_task? ((hc.logic.pattern p hp).members_subset slug h)
  ends t ht := by
    obtain ⟨hsource, htarget⟩ := hc.logic.ends_mem_slugs ht
    exact List.forall_mem_cons.2 ⟨isSome_of_mem_slugs hc.toSound hsource,
      List.forall_mem_singleton.2 (isSome_of_mem_slugs hc.toSound htarget)⟩
  nodes n hn := by
    refine ⟨hc.diagram.find?_of_mem hc.logic (c.diagram.perm_inOrder.mem_iff.1 hn),
      isSome_get?_sentries hc.toSound hn, fun hk => ?_⟩
    obtain ⟨t, -, ht⟩ := exists_task? hc.toRouted hn hk
    rw [ht]
    rfl
  edges entry hentry s h := by
    refine ⟨hasLines_route hc.diagram hc.logic hrouted entry hentry s h, fun e he => ?_⟩
    obtain ⟨n, hn, hget, -⟩ := exists_mem_left_of_forall₂ hc.toSound.forall₂_sentriesOf hentry
    obtain ⟨id, hid⟩ := (exists_settle_source hc.carriable hn (hget ▸ h) he).1
    exact ⟨id, (settle_eq_ok_iff.1 hid).1⟩
  names name attributes children h := (isSure_of_mem_root hc.toSound h).2 _ _ _ rfl
  texts d hd := by
    obtain ⟨t, ht⟩ := carries_root hc.carriable d hd
    exact ⟨t, settle_eq_ok_iff.1 ht⟩
  sections t h := (isSure_of_mem_root hc.toSound h).1 t rfl

end Document

open Document

/-! ## Compiled cases -/

/-- XML can carry an application that is accepted. -/
theorem isCarried_of_accepted {application : Except CompileError Application} {a : Application}
    (h : (∃ given : Application, application = given.check) ∨
      ∃ value, application = Application.ofJson value) (ha : application = .ok a) :
    a.IsCarried := by
  rcases h with ⟨given, rfl⟩ | ⟨value, rfl⟩
  · obtain ⟨rfl, hcarried⟩ := Application.check_eq_ok_iff.1 ha
    exact hcarried
  · exact Application.isCarried_of_ofJson ha

/-- Nothing fails once the checks are passed. -/
theorem exists_compiled_of_check {config : Config} {name raw : Json}
    {application : Except CompileError Application} {case : Case} {logic : Logic}
    (happlication : (∃ given : Application, application = given.check) ∨
      ∃ value, application = Application.ofJson value)
    (hcase : Case.make name application = .ok case) (hlogic : Logic.parse raw = .ok logic)
    (hids : Identifier.check logic case = .ok ()) (hassignee : config.assignee.isXmlText = true) :
    ∃ (c : Context Rat) (document : Text), c.logic = logic ∧ c.case = case ∧ c.config = config ∧
      layOut config.layoutMode logic = .ok c.diagram ∧ route logic c.diagram = .ok c.sentries ∧
      emit c = .ok document ∧ c.Complete ∧
      compile config (Case.make name application) (Logic.parse raw) =
        .ok ⟨logic, c.diagram, c.sentries, document⟩ := by
  have hconsistent := consistent_of_parse hlogic
  obtain ⟨-, happlied, hname⟩ := Case.make_eq_ok_iff.1 hcase
  obtain ⟨c, hprepare, hlaid, hrouted⟩ := exists_prepare config hconsistent hids
  obtain ⟨hs, rfl, rfl, rfl⟩ := sound_of_prepare hconsistent hprepare
  have hcarried : c.Carried := ⟨hs, isXmlText_of_isCaseName hname,
    isCarried_of_accepted happlication happlied, hassignee⟩
  obtain ⟨t, ht⟩ := exists_tree hcarried
  have happrover := hconsistent.unknownApprover?_eq_none
  refine ⟨c, render c.config.prettyPrint t, rfl, rfl, rfl, hlaid, hrouted, ?_,
    complete_of_carried hcarried hrouted,
    compile_eq_ok_iff.2 ⟨c.case, c.logic, c, t, hcase, hlogic, hprepare, happrover, ht, rfl⟩⟩
  rw [emit, happrover, ht]
  rfl

/-- The sample is compiled for an application that is given by its identifier. -/
theorem exists_compiled_sample :
    Case.make (.str "review") (Application.ofJson (.str "app")) =
        .ok ⟨"review", { identifier := "app" }⟩ ∧
      Identifier.check Logic.sample ⟨"review", { identifier := "app" }⟩ = .ok () ∧
      ∃ (c : Context Rat) (document : Text), c.logic = Logic.sample ∧ c.Complete ∧
        emit c = .ok document ∧
        compile {} (Case.make (.str "review") (Application.ofJson (.str "app")))
          (Logic.parse Logic.sampleValue) =
            .ok ⟨Logic.sample, c.diagram, c.sentries, document⟩ := by
  have hmake : Case.make (.str "review") (Application.ofJson (.str "app")) =
      .ok ⟨"review", { identifier := "app" }⟩ := by rfl
  have hids : Identifier.check Logic.sample ⟨"review", { identifier := "app" }⟩ = .ok () := by
    rfl
  have hassignee : ({} : Config).assignee.isXmlText = true := by decide
  obtain ⟨c, document, hlogic, -, -, -, -, hemit, hcomplete, hcompile⟩ :=
    exists_compiled_of_check (.inr ⟨.str "app", rfl⟩) hmake Logic.parse_sampleValue hids hassignee
  exact ⟨hmake, hids, c, document, hlogic, hcomplete, hemit, hcompile⟩

end CasePlan
