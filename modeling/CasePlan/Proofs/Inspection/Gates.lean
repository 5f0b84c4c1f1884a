import CasePlan.Proofs.Document.Reference
import CasePlan.Proofs.Expression.Reading
import CasePlan.Proofs.Inspection.Recovery

/-!
# Gates in documents

What is found in the sentries and in the human tasks of a document: the conditions on which tasks
start, and the rules for the outcomes with which they end.

Both stand in CDATA sections, and the lines in a section are ended by line feeds before it is read.
Rules have no line ends, so they are found as they were written.  Conditions have the line ends of
the outcomes in them, so they are found as they were put together exactly if no outcome has a
carriage return.

* `Inspection.gates`, `Inspection.payloads`: the conditions and the rules that are found.
* `gates_seenRoot`, `perm_payloads_seenRoot`: those in the document of a context.
* `exists_read`: they are found in the bytes of the document, in lines or not.
* `gates_compile`: what is found in a compiled document.
-/

namespace CasePlan

open Document Xml

namespace Inspection

/-! ## What is looked for -/

/-- The text of a piece, with its sections. -/
def ownText (c : Content) : Text :=
  c.children.flatMap fun
    | .text t => t
    | _ => []

/-- Whether a piece is the listener that sets the status. -/
def isStatusListener (c : Content) : Bool :=
  c.isElement engineNamespace "taskListener" && plainAttribute? "class" c = some statusListener

/-- Whether a piece is the field that holds the rules of a listener. -/
def isRulesField (c : Content) : Bool :=
  c.isElement engineNamespace "field" && plainAttribute? "name" c = some "variables"

/-- The way from a sentry to its condition. -/
def conditionPath : List (Content → Bool) :=
  [Content.isElement modelNamespace "ifPart", Content.isElement modelNamespace "condition"]

/-- The way from a human task to the rules for its outcomes. -/
def rulesPath : List (Content → Bool) :=
  [Content.isElement modelNamespace "extensionElements", isStatusListener, isRulesField,
    Content.isElement engineNamespace "string"]

/-- The identifier of every element of a name, with the texts that a path leads to from it. -/
def textsAt (base : Text) (path : List (Content → Bool)) (root : Content) :
    List (Option Text × List Text) :=
  (root.descendants.filter (Content.isElement modelNamespace base)).map fun e =>
    (plainAttribute? "id" e, (e.reach path).map ownText)

/-- The conditions of all sentries. -/
def gates (root : Content) : List (Option Text × List Text) :=
  textsAt "sentry" conditionPath root

/-- The rules of all human tasks. -/
def payloads (root : Content) : List (Option Text × List Text) :=
  textsAt "humanTask" rulesPath root

/-- A comparison is made at one of the gates of a slug. -/
def ComparesAt {α : Type} (sentries : List (Sentry α)) (read : Content) (slug : Text)
    (test : Expression.Test) : Prop :=
  ∃ s ∈ sentries, s.owner = slug ∧ ∃ gate tests, (some (sentryId s), [gate]) ∈ gates read ∧
    Expression.read? gate = some tests ∧ test ∈ tests

/-- The rule for an outcome is among those of a human task. -/
def Lists (read : Content) (id outcome : Text) : Prop :=
  ∃ payload rules, (some id, [payload]) ∈ payloads read ∧
    Outcome.readRules? payload = some rules ∧ Outcome.rule outcome ∈ rules

/-! ## White space -/

theorem isSteady_isStatusListener : Content.IsSteady isStatusListener :=
  ⟨fun c => by rw [isStatusListener, isStatusListener, Content.keeps_tidy.isElement,
    Content.keeps_tidy.plainAttribute?], fun _ => rfl⟩

theorem isSteady_isRulesField : Content.IsSteady isRulesField :=
  ⟨fun c => by rw [isRulesField, isRulesField, Content.keeps_tidy.isElement,
    Content.keeps_tidy.plainAttribute?], fun _ => rfl⟩

theorem isSteady_conditionPath : ∀ p ∈ conditionPath, Content.IsSteady p :=
  List.forall_mem_cons.2 ⟨Content.isSteady_isElement _ _,
    List.forall_mem_singleton.2 (Content.isSteady_isElement _ _)⟩

theorem isSteady_rulesPath : ∀ p ∈ rulesPath, Content.IsSteady p :=
  List.forall_mem_cons.2 ⟨Content.isSteady_isElement _ _,
    List.forall_mem_cons.2 ⟨isSteady_isStatusListener, List.forall_mem_cons.2
      ⟨isSteady_isRulesField, List.forall_mem_singleton.2 (Content.isSteady_isElement _ _)⟩⟩⟩

/-- White space between elements makes no difference to texts at the end of a path. -/
theorem textsAt_eq_of_tidy {base : Text} {path : List (Content → Bool)}
    (hpath : ∀ p ∈ path, Content.IsSteady p) {c d : Content}
    (hleaf : ∀ e ∈ d.descendants.filter (Content.isElement modelNamespace base),
      ∀ k ∈ e.reach path, k.IsLeaf)
    (h : c.tidy = d.tidy) : textsAt base path c = textsAt base path d := by
  have hkind := Content.isSteady_isElement modelNamespace base
  have hsame : (c.descendants.filter (Content.isElement modelNamespace base)).map Content.tidy =
      (d.descendants.filter (Content.isElement modelNamespace base)).map Content.tidy := by
    rw [← Content.keeps_tidy.filter_descendants hkind.tidy hkind.text,
      ← Content.keeps_tidy.filter_descendants hkind.tidy hkind.text, h]
  refine Content.map_eq_map_of_tidy (fun e he e' htidy => ?_) hsame
  rw [Content.reach_eq_of_tidy hpath (hleaf e he) htidy, ← Content.keeps_tidy.plainAttribute?,
    htidy, Content.keeps_tidy.plainAttribute?]

/-! ## Pieces -/

section

variable {α : Type} {c : Context α}

/-- The condition of a sentry as it is read. -/
theorem reach_sentry (c : Context α) (s : Sentry α) :
    (seen (sentry c s)).reach conditionPath =
      [seen (element "condition" []
        (if s.condition.isEmpty then [] else [.cdata (.ok s.condition)]))] := by
  have honParts : ((onParts c s).map seen).filter (Content.isElement modelNamespace "ifPart") =
      [] := by
    rw [List.filter_map, List.map_eq_nil_iff, List.filter_eq_nil_iff]
    intro k hk
    obtain ⟨x, -, rfl⟩ := List.mem_map.1 hk
    exact Bool.false_ne_true
  have hchildren : (seen (sentry c s)).children = (onParts c s ++ [ifPart s]).map seen := by
    rw [sentry_eq, element, seen_element]
    rfl
  rw [conditionPath, Content.reach, hchildren, List.map_append, List.filter_append, honParts]
  rfl

theorem ownText_condition (t : Text) :
    ownText (seen (element "condition" [] (if t.isEmpty then [] else [.cdata (.ok t)]))) =
      normalizeLines t := by
  cases t with
  | nil => rfl
  | cons d t => exact List.append_nil _

/-- The rules of a task as they are read. -/
theorem reach_taskPiece (n : Node α) (t : Task) :
    (seen (taskPiece c n t)).reach rulesPath =
      [seen (element "flowable:string" [] [.cdata (.ok (Outcome.write t.outcomes))])] := by
  rfl

theorem ownText_string {outcomes : List Text} (h : Outcome.AreScalar outcomes) :
    ownText (seen (element "flowable:string" [] [.cdata (.ok (Outcome.write outcomes))])) =
      Outcome.write outcomes :=
  (List.append_nil _).trans (normalizeLines_write h)

/-- What holds sections only is read as what holds texts only. -/
theorem isLeaf_seen (name : Text) {children : List Piece}
    (h : ∀ k ∈ children, ∃ t, k = .cdata t) : (seen (element name [] children)).IsLeaf := by
  intro k hk
  rw [element, seen_element] at hk
  obtain ⟨n, hn, rfl⟩ := List.mem_map.1 hk
  obtain ⟨t, rfl⟩ := h n hn
  rfl

variable [Coordinate α]

/-- The elements of a name in a document as it is read. -/
theorem filter_descendants_seenRoot (c : Context α) {base : Text}
    (hbase : nameIn documentScope base = ⟨some modelNamespace, base⟩) (hne : base ≠ "definitions") :
    (seenRoot c).descendants.filter (Content.isElement modelNamespace base) =
      ((root c).select base).map seen := by
  have hroot : (seenRoot c).isElement modelNamespace base = false := by
    rw [seenRoot, rootContent, Content.isElement, Bool.and_eq_false_iff]
    exact .inr (decide_eq_false fun h => hne h.symm)
  rw [seenRoot, descendants_rootContent, ← seenRoot, List.filter_cons_of_neg (by rw [hroot]; decide),
    List.filter_flatMap, select_root c hne, List.map_append, ← filter_descendants_seen hbase,
    ← filter_descendants_seen hbase]
  simp only [List.flatMap_cons, List.flatMap_nil, List.append_nil]

/-! ## Documents -/

variable {t : Xml.Node Text}

/-- Every condition is found with its lines ended. -/
theorem gates_seenRoot (hs : c.Sound) :
    gates (seenRoot c) = (c.sentries.flatMap Prod.snd).map fun s =>
      (some (sentryId s), [normalizeLines s.condition]) := by
  have hid : ∀ s : Sentry α, plainAttribute? "id" (seen (sentry c s)) = some (sentryId s) :=
    fun _ => rfl
  rw [gates, textsAt, filter_descendants_seenRoot c rfl (by decide), select_sentry_root hs.toRouted,
    allSentries_eq hs, List.map_map, List.map_map]
  refine List.map_congr_left fun s _ => ?_
  rw [Function.comp_apply, Function.comp_apply, reach_sentry, List.map_singleton,
    ownText_condition, hid]

/-- The identifier of the human task of a task. -/
def taskId (case : Case) (logic : Logic) (t : Task) : Text :=
  Identifier.scope ((logic.stageOf? t.slug).map (·.slug)) case.name ++ t.slug

/-- What is found of the human task of a node. -/
theorem exists_foundRules (hs : c.Sound) {n : Node α} (hn : n ∈ c.diagram.inOrder)
    (hk : n.kind = .task) : ∃ t ∈ c.logic.tasks, c.logic.task? n.slug = some t ∧
      plainAttribute? "id" (seen (humanTask c n)) = some (c.scope n ++ n.slug) ∧
      ((seen (humanTask c n)).reach rulesPath).map ownText = [Outcome.write t.outcomes] := by
  obtain ⟨t, ht, hfound⟩ := exists_task? hs.toRouted hn hk
  have hdefinition : c.definitionId n = c.scope n ++ n.slug := by
    rw [Context.definitionId, hk]
  have hscalar := areScalar_of_isOutcome (hs.logic.task t ht).outcomes
  rw [humanTask_eq hfound, attributes_taskPiece.1, hdefinition, reach_taskPiece, List.map_singleton,
    ownText_string hscalar]
  exact ⟨t, ht, hfound, rfl, rfl⟩

/-- The rules of a task, by what a node is, what its identifiers begin with, and its slug. -/
def rulesOf? (logic : Logic) (key : NodeKind × Text × Text) : Option (Option Text × List Text) :=
  match key.1 with
  | .stage => none
  | .task =>
    (logic.task? key.2.2).map fun t => (some (key.2.1 ++ key.2.2), [Outcome.write t.outcomes])

/-- The rules of every task are found as they were written. -/
theorem perm_payloads_seenRoot (hs : c.Sound) :
    (payloads (seenRoot c)).Perm (c.logic.tasks.map fun t =>
      (some (taskId c.case c.logic t), [Outcome.write t.outcomes])) := by
  have hnodes : (c.diagram.inOrder.map fun n => (n.kind, c.scope n, n.slug)).filterMap
      (rulesOf? c.logic) =
        ((c.diagram.inOrder.filter (·.kind = .task)).map (humanTask c)).map fun m =>
          (plainAttribute? "id" (seen m), ((seen m).reach rulesPath).map ownText) := by
    rw [List.filterMap_map, List.map_map, ← List.filterMap_eq_map, List.filterMap_filter]
    refine List.filterMap_congr fun n hn => ?_
    cases hk : n.kind with
    | stage => simp [rulesOf?, hk]
    | task =>
      obtain ⟨t, -, hfound, hid, htexts⟩ := exists_foundRules hs hn hk
      simp [rulesOf?, hk, hfound, hid, htexts]
  have hstages : (c.logic.stages.map fun s => (NodeKind.stage, c.case.name, s.slug)).filterMap
      (rulesOf? c.logic) = [] := by
    simp [rulesOf?]
  have htasks : (c.logic.tasks.map fun t => (NodeKind.task,
      Identifier.scope ((c.logic.stageOf? t.slug).map (·.slug)) c.case.name, t.slug)).filterMap
        (rulesOf? c.logic) = c.logic.tasks.map fun t =>
          (some (taskId c.case c.logic t), [Outcome.write t.outcomes]) := by
    rw [List.filterMap_map, ← List.filterMap_eq_map]
    refine List.filterMap_congr fun t ht => ?_
    simp [rulesOf?, hs.logic.task?_eq_some ht, taskId]
  have hperm := (perm_keys hs.toRouted).filterMap (rulesOf? c.logic)
  rw [hnodes, List.filterMap_append, hstages, htasks, List.nil_append] at hperm
  rw [payloads, textsAt, filter_descendants_seenRoot c rfl (by decide), List.map_map]
  exact ((perm_select_humanTask_root hs.toRouted).map _).trans hperm

/-- The document of a settled tree can be sent, and the conditions and rules that are read from it
are those of the tree. -/
theorem exists_read (hs : c.Sound) (ht : tree c = .ok t) (prettyPrint : Bool) :
    ∃ bytes read, Utf8.encode? (render prettyPrint t) = .ok bytes ∧
      Content.ofBytes? bytes = some read ∧
      gates read = gates (seenRoot c) ∧ payloads read = payloads (seenRoot c) := by
  obtain ⟨bytes, read, hbytes, hread, htidy⟩ := ofBytes?_render hs ht prettyPrint
  refine ⟨bytes, read, hbytes, hread, textsAt_eq_of_tidy isSteady_conditionPath ?_ htidy,
    textsAt_eq_of_tidy isSteady_rulesPath ?_ htidy⟩
  · intro e he k hk
    rw [filter_descendants_seenRoot c rfl (by decide), select_sentry_root hs.toRouted,
      List.map_map] at he
    obtain ⟨s, -, rfl⟩ := List.mem_map.1 he
    rw [Function.comp_apply, reach_sentry] at hk
    rw [List.mem_singleton.1 hk]
    refine isLeaf_seen _ fun m hm => ?_
    split at hm
    · exact absurd hm List.not_mem_nil
    · exact ⟨_, List.mem_singleton.1 hm⟩
  · intro e he k hk
    rw [filter_descendants_seenRoot c rfl (by decide)] at he
    obtain ⟨m, hm, rfl⟩ := List.mem_map.1 he
    obtain ⟨n, hn, rfl⟩ := List.mem_map.1 ((perm_select_humanTask_root hs.toRouted).mem_iff.1 hm)
    rw [List.mem_filter, decide_eq_true_eq] at hn
    obtain ⟨t, -, hfound⟩ := exists_task? hs.toRouted hn.1 hn.2
    rw [humanTask_eq hfound, reach_taskPiece] at hk
    rw [List.mem_singleton.1 hk]
    exact isLeaf_seen _ (List.forall_mem_singleton.2 ⟨_, rfl⟩)

/-! ## Conditions of transitions -/

/-- The condition on a transition is joined into that of a sentry of its target. -/
theorem exists_sentry_of_transition (hs : c.Sound) {t : Transition}
    (ht : t ∈ c.logic.transitions) {d : Condition} (hd : d ∈ t.condition) :
    ∃ s ∈ c.sentries.flatMap Prod.snd, s.owner = t.target ∧
      ∃ ds : List Condition, s.condition = Expression.condition ds ∧ d ∈ ds := by
  obtain ⟨task, htask, hslug⟩ := Logic.mem_slugs.1 (hs.logic.ends_mem_slugs ht).2
  obtain ⟨n, hn, hshows⟩ := hs.diagram.exists_showsTask hs.logic htask
  have htarget : n.slug = t.target := hshows.slug.trans hslug
  have hguarded := hs.guardedBy hn
  have hall : ∀ s ∈ c.sentriesOf n, s ∈ c.sentries.flatMap Prod.snd := fun s hmem => by
    rw [← allSentries_eq hs]
    exact List.mem_flatMap.2 ⟨n, hn, hmem⟩
  by_cases hloop : t.source = n.slug
  · obtain ⟨s, hmem, hk⟩ := hguarded.selfLoop_iff.2 ⟨t, ht, htarget.symm, hloop⟩
    refine ⟨s, hall s hmem, (hguarded.owner s hmem).trans htarget, _,
      (hguarded.selfLoop s hmem hk).2, List.mem_filterMap.2 ⟨t, ?_, hd⟩⟩
    exact Logic.mem_loops.2 ⟨ht, htarget.symm, hloop⟩
  · obtain ⟨s, hmem, hk⟩ := hguarded.transition_iff.2 ⟨t, ht, htarget.symm, hloop⟩
    refine ⟨s, hall s hmem, (hguarded.owner s hmem).trans htarget, _,
      (hguarded.transition s hmem hk).2, List.mem_filterMap.2 ⟨t, ?_, hd⟩⟩
    exact Logic.mem_external.2 ⟨ht, htarget.symm, hloop⟩

/-- The conditions of all sentries stay as they are when their lines are ended, exactly if no
transition is on an outcome with a carriage return. -/
theorem normalizeLines_conditions_iff (hs : c.Sound) :
    (∀ s ∈ c.sentries.flatMap Prod.snd, normalizeLines s.condition = s.condition) ↔
      ∀ t ∈ c.logic.transitions, ∀ d ∈ t.condition, .carriageReturn ∉ d.outcome := by
  constructor
  · intro h t ht d hd
    obtain ⟨s, hmem, -, ds, hcondition, hds⟩ := exists_sentry_of_transition hs ht hd
    have hsame := h s hmem
    rw [hcondition] at hsame
    exact Expression.normalizeLines_condition_eq_self_iff.1 hsame d hds
  · intro h s hmem
    rw [← allSentries_eq hs] at hmem
    obtain ⟨n, hn, hmem⟩ := List.mem_flatMap.1 hmem
    obtain ⟨ts, hts, hcondition⟩ := exists_condition_eq hs hn hmem
    rw [hcondition]
    refine Expression.normalizeLines_condition_eq_self_iff.2 fun d hd => ?_
    obtain ⟨t, ht, hd⟩ := List.mem_filterMap.1 hd
    exact h t (hts t ht) d hd

/-- A comparison with the outcome of a condition, its lines ended, is found at a gate of the target. -/
theorem exists_comparesAt (hs : c.Sound) {read : Content} (hread : gates read = gates (seenRoot c))
    {t : Transition} (ht : t ∈ c.logic.transitions) {d : Condition} (hd : d ∈ t.condition) :
    ∃ test, ComparesAt (c.sentries.flatMap Prod.snd) read t.target test ∧
      test.comparison = d.comparison ∧ test.literal = normalizeLines d.outcome := by
  obtain ⟨s, hmem, howner, ds, hcondition, hds⟩ := exists_sentry_of_transition hs ht hd
  obtain ⟨test, htest, hcomparison, hliteral⟩ :=
    Expression.exists_mem_tests (List.mem_map_of_mem (f := Condition.endLines) hds)
  refine ⟨test, ⟨s, hmem, howner, normalizeLines s.condition, _, ?_, ?_, htest⟩, hcomparison,
    hliteral⟩
  · rw [hread, gates_seenRoot hs]
    exact List.mem_map_of_mem hmem
  · rw [hcondition, Expression.normalizeLines_condition, Expression.read?_condition]

/-- The rule for every outcome of a task is found. -/
theorem lists_of_mem (hs : c.Sound) {read : Content}
    (hread : payloads read = payloads (seenRoot c)) {task : Task} (htask : task ∈ c.logic.tasks)
    {outcome : Text} (h : outcome ∈ task.outcomes) :
    Lists read (taskId c.case c.logic task) outcome := by
  refine ⟨Outcome.write task.outcomes, task.outcomes.map Outcome.rule, ?_, ?_,
    List.mem_map_of_mem h⟩
  · rw [hread, (perm_payloads_seenRoot hs).mem_iff]
    exact List.mem_map_of_mem htask
  · rw [← Outcome.strip_write]
    exact Outcome.readRules?_write (areScalar_of_isOutcome (hs.logic.task task htask).outcomes)

end

end Inspection

open Inspection

/-- In a compiled document the rules for outcomes are found as they were written, and conditions
with their lines ended.  So conditions are found as they were put together exactly if no transition
is on an outcome with a carriage return, and such an outcome is not compared with itself. -/
theorem gates_compile {config : Config} {name raw : Json}
    {application : Except CompileError Application} {compiled : Compiled}
    (h : compile config (Case.make name application) (Logic.parse raw) = .ok compiled) :
    ∃ case logic bytes read, name = .str case.name ∧ Logic.parse raw = .ok logic ∧
      Utf8.encode? compiled.document = .ok bytes ∧ Content.ofBytes? bytes = some read ∧
      gates read = ((compiled.sentries.flatMap Prod.snd).map fun s =>
        (some (sentryId s), [normalizeLines s.condition])) ∧
      (gates read = ((compiled.sentries.flatMap Prod.snd).map fun s =>
          (some (sentryId s), [s.condition])) ↔
        ∀ t ∈ logic.transitions, ∀ d ∈ t.condition, .carriageReturn ∉ d.outcome) ∧
      (payloads read).Perm (logic.tasks.map fun t =>
        (some (taskId case logic t), [Outcome.write t.outcomes])) ∧
      ∀ t ∈ logic.transitions, ∀ d ∈ t.condition, ∀ task ∈ logic.tasks, task.slug = t.source →
        d.outcome ∈ task.outcomes → Lists read (taskId case logic task) d.outcome ∧
          ∃ test, ComparesAt (compiled.sentries.flatMap Prod.snd) read t.target test ∧
            test.comparison = d.comparison ∧
            (test.literal = d.outcome ↔ .carriageReturn ∉ d.outcome) := by
  obtain ⟨case, logic, c, t, hcase, hlogic, hprepare, -, ht, rfl⟩ := compile_eq_ok_iff.1 h
  obtain ⟨hs, rfl, rfl, rfl⟩ := sound_of_prepare (consistent_of_parse hlogic) hprepare
  obtain ⟨hname, -, -⟩ := Case.make_eq_ok_iff.1 hcase
  obtain ⟨bytes, read, hbytes, hread, hgates, hpayloads⟩ := exists_read hs ht c.config.prettyPrint
  refine ⟨c.case, c.logic, bytes, read, hname, hlogic, hbytes, hread, ?_, ?_, ?_, ?_⟩
  · rw [hgates, gates_seenRoot hs]
  · rw [hgates, gates_seenRoot hs, ← normalizeLines_conditions_iff hs, List.map_inj_left]
    simp only [Prod.mk.injEq, List.cons.injEq, and_true, true_and]
  · rw [hpayloads]
    exact perm_payloads_seenRoot hs
  · intro t ht d hd task htask _ houtcome
    obtain ⟨test, hcompares, hcomparison, hliteral⟩ := exists_comparesAt hs hgates ht hd
    refine ⟨lists_of_mem hs hpayloads htask houtcome, test, hcompares, hcomparison, ?_⟩
    rw [hliteral, normalizeLines_eq_self_iff]

/-- An approval chain; the first task ends with an outcome of two lines. -/
def twoLines : Logic where
  tasks := [{ slug := "a", displayName := "A", outcomes := ["x\ry"] },
    { slug := "b", displayName := "B", outcomes := ["done"] }]
  patterns := [⟨.approvalChain, ["a", "b"], []⟩]

/-- The value that holds `twoLines`. -/
def twoLinesValue : Json :=
  .obj [("tasks", .arr
      [.obj [("slug", .str "a"), ("displayName", .str "A"), ("outcomes", .arr [.str "x\ry"])],
        .obj [("slug", .str "b"), ("displayName", .str "B"), ("outcomes", .arr [.str "done"])]]),
    ("patterns", .arr
      [.obj [("type", .str "approval-chain"), ("tasks", .arr [.str "a", .str "b"])]])]

/-- The second task waits for an outcome that the first one does not list. -/
theorem gates_compile_twoLines : ∃ compiled bytes read,
    compile {} (Case.make (.str "review") (.ok { identifier := "app" }))
        (Logic.parse twoLinesValue) = .ok compiled ∧
      Utf8.encode? compiled.document = .ok bytes ∧ Content.ofBytes? bytes = some read ∧
      gates read ≠ ((compiled.sentries.flatMap Prod.snd).map fun s =>
        (some (sentryId s), [s.condition])) ∧
      Lists read "reviewa" "x\ry" ∧
      ∃ test, ComparesAt (compiled.sentries.flatMap Prod.snd) read "b" test ∧
        test.comparison = .equals ∧ test.literal ≠ "x\ry" := by
  have hmake : Case.make (.str "review") (.ok { identifier := "app" }) =
      .ok ⟨"review", { identifier := "app" }⟩ := by rfl
  have hparse : Logic.parse twoLinesValue = .ok twoLines := by rfl
  have happroval : (⟨"a", "b", some { source := "a", target := "b", outcome := "x\ry" }⟩ :
      Transition) ∈ twoLines.transitions := by decide +kernel
  have hreturn : CodePoint.carriageReturn ∈ Text.ofString "x\ry" := by decide
  obtain ⟨compiled, hcompile⟩ := exists_compile {} hmake hparse (by decide +kernel)
  obtain ⟨case, logic, bytes, read, hname, hlogic, hbytes, hread, -, hsame, -, hliteral⟩ :=
    gates_compile hcompile
  obtain rfl := Except.ok.inj (hparse.symm.trans hlogic)
  obtain ⟨hlists, test, hcompares, hcomparison, hdiffers⟩ :=
    hliteral _ happroval _ rfl _ List.mem_cons_self rfl List.mem_cons_self
  refine ⟨compiled, bytes, read, hcompile, hbytes, hread, fun h => ?_, ?_, test, hcompares,
    hcomparison, fun h => hdiffers.1 h hreturn⟩
  · exact hsame.1 h _ happroval _ rfl hreturn
  · have hid : taskId case twoLines { slug := "a", displayName := "A", outcomes := ["x\ry"] } =
        "reviewa" := by
      rw [taskId, ← Json.str.inj hname]
      rfl
    rw [← hid]
    exact hlists

end CasePlan
