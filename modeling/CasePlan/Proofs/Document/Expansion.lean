import CasePlan.Proofs.Document.Context
import CasePlan.Proofs.Document.Elements
import CasePlan.Proofs.Logic.Repetition

/-!
# Documents of expanded patterns

A document is made from the tasks of its description and from those that may be done again, so a
pattern that is there already does not change it.

* `root_withLogic`: what a document takes from the description.
* `compileLogic_withPattern`: a description is compiled as it is with one of its patterns again.
* `parse_expands`: the transitions of accepted descriptions.
-/

namespace CasePlan

namespace Document

variable {α : Type}

/-! ## What a document takes from the description -/

/-- What a document is made from, with another description and its tasks that may be done again. -/
def Context.withLogic (c : Context α) (logic : Logic) (slugs : List Text)
    (h : slugs = logic.repeatable) : Context α :=
  { c with logic := logic, repeatable := slugs, repeatable_eq := h }

variable {c : Context α} {logic : Logic} {slugs : List Text} {h : slugs = logic.repeatable}

theorem planItem_withLogic (htask : logic.task? = c.logic.task?)
    (hrepeatable : slugs = c.repeatable) (n : Node α) :
    planItem (c.withLogic logic slugs h) n = planItem c n := by
  have hrepeats : repeats (c.withLogic logic slugs h) n = repeats c n := by
    simp only [repeats, Context.withLogic, hrepeatable]
  have hrule : repetitionRule (c.withLogic logic slugs h) n.slug = repetitionRule c n.slug := by
    simp only [repetitionRule, Context.withLogic, htask]
  unfold planItem
  rw [hrepeats, hrule]
  rfl

theorem humanTask_withLogic (htask : logic.task? = c.logic.task?) (n : Node α) :
    humanTask (c.withLogic logic slugs h) n = humanTask c n := by
  simp only [humanTask, Context.withLogic, htask]
  rfl

theorem stageContentWith_withLogic (htask : logic.task? = c.logic.task?)
    (hrepeatable : slugs = c.repeatable) (members : List (Node α))
    (nested : List Piece) :
    stageContentWith (c.withLogic logic slugs h) members nested =
      stageContentWith c members nested := by
  have hitem : planItem (c.withLogic logic slugs h) = planItem c :=
    funext fun n => planItem_withLogic htask hrepeatable n
  have htasks : humanTask (c.withLogic logic slugs h) = humanTask c :=
    funext fun n => humanTask_withLogic htask n
  unfold stageContentWith
  rw [hitem, htasks]
  rfl

mutual

theorem nestedStage_withLogic (htask : logic.task? = c.logic.task?)
    (hrepeatable : slugs = c.repeatable) :
    ∀ n : Node α, nestedStage (c.withLogic logic slugs h) n = nestedStage c n
  | ⟨slug, name, kind, parent, box, children⟩ => by
    rw [nestedStage_eq, nestedStage_eq, nestedStages_withLogic htask hrepeatable children,
      stageContentWith_withLogic htask hrepeatable]

theorem nestedStages_withLogic (htask : logic.task? = c.logic.task?)
    (hrepeatable : slugs = c.repeatable) :
    ∀ ns : List (Node α), nestedStages (c.withLogic logic slugs h) ns = nestedStages c ns
  | [] => rfl
  | n :: ns => by
    rw [nestedStages, nestedStages, nestedStage_withLogic htask hrepeatable n,
      nestedStages_withLogic htask hrepeatable ns]

end

variable [Coordinate α]

/-- A document is made from the tasks that are found and from those that may be done again. -/
theorem root_withLogic (htask : logic.task? = c.logic.task?)
    (hrepeatable : slugs = c.repeatable) : root (c.withLogic logic slugs h) = root c := by
  have hcontent : stageContent (c.withLogic logic slugs h) c.diagram.nodes =
      stageContent c c.diagram.nodes := by
    rw [stageContent, stageContent, nestedStages_withLogic htask hrepeatable,
      stageContentWith_withLogic htask hrepeatable]
  have hcase : caseElement (c.withLogic logic slugs h) = caseElement c := by
    show element "case" _ [element "casePlanModel" _ [_, element "stage" _
      (stageContent (c.withLogic logic slugs h) c.diagram.nodes)]] = _
    rw [hcontent]
    rfl
  have hdiagram : diagramElement (c.withLogic logic slugs h) = diagramElement c := rfl
  unfold root
  rw [hcase, hdiagram]

end Document

open Document

/-! ## A pattern that is there already -/

variable {logic : Logic} {p : Pattern}

/-- Both descriptions are laid out alike. -/
theorem layOut_withPattern (logic : Logic) (p : Pattern) (mode : LayoutMode) :
    layOut mode (logic.withPattern p) = layOut mode logic :=
  Layout.layOut_congr (by rfl) (by rfl) mode

/-- Both descriptions are routed alike. -/
theorem route_withPattern {α : Type} [Coordinate α] (hp : p ∈ logic.patterns) (d : Diagram α) :
    route (logic.withPattern p) d = route logic d := by
  unfold route
  rw [Logic.transitions_withPattern hp, Logic.unknownApprover?_withPattern hp]
  rfl

/-- A description is compiled as it is with one of its patterns again. -/
theorem compileLogic_withPattern (hp : p ∈ logic.patterns) (config : Config) (case : Case) :
    (compileLogic config case (logic.withPattern p)).map (·.document) =
      (compileLogic config case logic).map (·.document) := by
  have hwrite : ∀ c c' : Context Rat, c'.logic.unknownApprover? = c.logic.unknownApprover? →
      c'.config = c.config → root c' = root c →
      (Compiled.ofContext c').map (·.document) = (Compiled.ofContext c).map (·.document) := by
    intro c c' happrover hconfig hroot
    have hemit : emit c' = emit c := by
      rw [emit, emit, tree, tree, happrover, hconfig, hroot]
    unfold Compiled.ofContext
    rw [hemit]
    cases emit c <;> rfl
  have hids : Identifier.check (logic.withPattern p) case = Identifier.check logic case := rfl
  unfold compileLogic prepare
  rw [hids, layOut_withPattern]
  cases Identifier.check logic case with
  | error e => rfl
  | ok =>
    cases layOut config.layoutMode logic with
    | error slug => rfl
    | ok d =>
      have hrouted := route_withPattern hp d
      show (unknown (route (logic.withPattern p) d) >>= _ >>= _).map _ =
        (unknown (route logic d) >>= _ >>= _).map _
      rw [hrouted]
      cases route logic d with
      | error slug => rfl
      | ok sentries =>
        have hroot : root (Context.withLogic ⟨logic, d, sentries, case, config, _, rfl⟩
            (logic.withPattern p) _ rfl) = root ⟨logic, d, sentries, case, config, _, rfl⟩ :=
          root_withLogic rfl (Logic.repeatable_withPattern hp)
        exact hwrite _ _ (Logic.unknownApprover?_withPattern hp) rfl hroot

/-! ## Accepted descriptions -/

/-- The transitions of an accepted description are what its patterns imply and declare, and a
pattern that is there already adds nothing. -/
theorem parse_expands {raw : Json} {logic : Logic} (h : Logic.parse raw = .ok logic) :
    (∀ p ∈ logic.patterns, p.Expands logic (p.transitions logic.task?)) ∧
      logic.Collects logic.transitions ∧
      ∀ p ∈ logic.patterns, (logic.withPattern p).transitions = logic.transitions ∧
        (logic.withPattern p).repeatable = logic.repeatable ∧
        ∀ (config : Config) (case? : Except CompileError Case),
          (compile config case? (.ok (logic.withPattern p))).map (·.document) =
            (compile config case? (Logic.parse raw)).map (·.document) := by
  have hc := consistent_of_parse h
  refine ⟨fun p hp => Pattern.expands_transitions hc hp, logic.collects_transitions,
    fun p hp => ⟨Logic.transitions_withPattern hp, Logic.repeatable_withPattern hp,
      fun config case? => ?_⟩⟩
  rw [h]
  cases case? with
  | error e => rfl
  | ok case => exact compileLogic_withPattern hp config case

/-- A description whose first pattern names its tasks twice. -/
def rounds : Logic where
  tasks := [{ slug := "draft", displayName := "Draft", outcomes := ["done"] },
    { slug := "review", displayName := "Review", outcomes := ["accepted", "again"] }]
  patterns :=
    [⟨.sequential, ["draft", "review", "draft", "review"],
      [{ source := "review", target := "review", outcome := "again" },
        { source := "review", target := "draft", outcome := "again" }]⟩,
      ⟨.approvalChain, ["review", "draft"], []⟩]

/-- The value that holds `rounds`. -/
def roundsValue : Json :=
  .obj [("tasks", .arr
      [.obj [("slug", .str "draft"), ("displayName", .str "Draft"),
          ("outcomes", .arr [.str "done"])],
        .obj [("slug", .str "review"), ("displayName", .str "Review"),
          ("outcomes", .arr [.str "accepted", .str "again"])]]),
    ("patterns", .arr
      [.obj [("type", .str "sequential"),
        ("tasks", .arr [.str "draft", .str "review", .str "draft", .str "review"]),
        ("conditions", .arr
          [.obj [("sourceTask", .str "review"), ("targetTask", .str "review"),
              ("outcome", .str "again")],
            .obj [("sourceTask", .str "review"), ("targetTask", .str "draft"),
              ("outcome", .str "again")]])],
        .obj [("type", .str "approval-chain"), ("tasks", .arr [.str "review", .str "draft"])]])]

/-- The patterns of `rounds` are expanded, pair by pair, and a second approval chain adds nothing. -/
theorem parse_expands_rounds :
    Logic.parse roundsValue = .ok rounds ∧
      (∀ p ∈ rounds.patterns, p.Expands rounds (p.transitions rounds.task?)) ∧
      rounds.Collects rounds.transitions ∧
      (rounds.withPattern ⟨.approvalChain, ["review", "draft"], []⟩).transitions =
        rounds.transitions := by
  have hparse : Logic.parse roundsValue = .ok rounds := by rfl
  obtain ⟨hexpands, hcollects, hagain⟩ := parse_expands hparse
  exact ⟨hparse, hexpands, hcollects, (hagain _ (by decide)).1⟩

example : rounds.transitions.map (fun t => (t.source, t.target, t.condition.map (·.outcome))) =
    ([("draft", "review", none), ("review", "draft", some "again"),
      ("review", "review", some "again"), ("review", "draft", some "accepted")] :
        List (Text × Text × Option Text)) := by
  decide +kernel

end CasePlan
