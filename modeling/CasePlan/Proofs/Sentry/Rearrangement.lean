import CasePlan.Logic.Payload
import CasePlan.Proofs.Sentry.Representation

/-!
# The order of declarations

Two descriptions of the same tasks and stages may reach the same transitions by other patterns, in
another order, more than once or on other outcomes.  What is drawn does not tell them apart: the
votes of the sources, their numbers and what enters a stage depend on which tasks lead to which
alone.  The order of the edges of a sentry and its condition follow the order of declaration.

* `Logic.Rearranges`: descriptions that differ at most in how their patterns reach transitions.
* `Sentry.SameDrawing`: sentries that differ at most in the order of their edges and in their
  conditions.
* `Quadrant.vote_eq_of_perm`, `jointSentry_sameDrawing`, `nodeSentries_sameDrawing`: what is made
  for a node.
* `route_of_rearranges`: what routing gives.
-/

namespace CasePlan

/-- Two descriptions have the same tasks and stages, and lead from the same tasks to the same
tasks. -/
structure Logic.Rearranges (logic logic' : Logic) : Prop where
  /-- They have the same tasks, in the same order. -/
  tasks : logic.tasks = logic'.tasks
  /-- They have the same stages, in the same order. -/
  stages : logic.stages = logic'.stages
  /-- They have transitions between the same tasks. -/
  ends : ∀ ends, ends ∈ logic.transitions.map Transition.ends ↔
    ends ∈ logic'.transitions.map Transition.ends

/-- Two sentries differ at most in the order of their edges and in their conditions. -/
structure Sentry.SameDrawing {α : Type} (s s' : Sentry α) : Prop where
  /-- They are of the same node. -/
  owner : s.owner = s'.owner
  /-- They have the same number. -/
  index : s.index = s'.index
  /-- They are of the same kind. -/
  kind : s.kind = s'.kind
  /-- They sit on the same edge of the node. -/
  side : s.side = s'.side
  /-- They have the same box. -/
  box : s.box = s'.box
  /-- They have the same edges: the same ends, events and lines. -/
  edges : s.edges.Perm s'.edges

theorem Sentry.SameDrawing.refl {α : Type} (s : Sentry α) : s.SameDrawing s :=
  ⟨rfl, rfl, rfl, rfl, rfl, .refl _⟩

/-! ## What leads to a node -/

namespace Logic.Rearranges

variable {logic logic' : Logic} (h : logic.Rearranges logic')
include h

theorem exists_transition_iff (source target : Text) :
    (∃ t ∈ logic.transitions, t.target = target ∧ t.source = source) ↔
      ∃ t ∈ logic'.transitions, t.target = target ∧ t.source = source := by
  have hends : ∀ l : Logic, (∃ t ∈ l.transitions, t.target = target ∧ t.source = source) ↔
      (source, target) ∈ l.transitions.map Transition.ends := by
    intro l
    simp only [List.mem_map, Transition.ends, Prod.mk.injEq, and_comm]
  rw [hends, hends, h.ends]

theorem position?_eq (slug : Text) : logic.position? slug = logic'.position? slug := by
  rw [Logic.position?, Logic.position?, h.tasks]

/-- The same tasks lead to a task. -/
theorem perm_sourcesOf_external (slug : Text) :
    (Routing.sourcesOf (logic.external slug)).Perm (Routing.sourcesOf (logic'.external slug)) := by
  have hmem : ∀ (l : Logic) (source : Text), source ∈ Routing.sourcesOf (l.external slug) ↔
      source ≠ slug ∧ ∃ t ∈ l.transitions, t.target = slug ∧ t.source = source := by
    intro l source
    rw [Routing.sourcesOf, List.mem_eraseDups, List.mem_map]
    simp only [Logic.mem_external]
    constructor
    · rintro ⟨t, ⟨ht, htarget, hne⟩, rfl⟩
      exact ⟨hne, t, ht, htarget, rfl⟩
    · rintro ⟨hne, t, ht, htarget, rfl⟩
      exact ⟨t, ⟨ht, htarget, hne⟩, rfl⟩
  refine (List.perm_ext_iff_of_nodup (nodup_eraseDups _) (nodup_eraseDups _)).2 fun source => ?_
  exact (hmem logic source).trans
    ((and_congr_right fun _ => h.exists_transition_iff source slug).trans (hmem logic' source).symm)

theorem external_eq_nil_iff (slug : Text) :
    logic.external slug = [] ↔ logic'.external slug = [] := by
  rw [← Routing.sourcesOf_eq_nil_iff, ← Routing.sourcesOf_eq_nil_iff]
  exact ⟨fun hnil => (hnil ▸ h.perm_sourcesOf_external slug).nil_eq.symm,
    fun hnil => (hnil ▸ h.perm_sourcesOf_external slug).eq_nil⟩

theorem loops_eq_nil_iff (slug : Text) : logic.loops slug = [] ↔ logic'.loops slug = [] := by
  rw [← not_iff_not]
  exact Logic.loops_ne_nil_iff.trans
    ((h.exists_transition_iff slug slug).trans Logic.loops_ne_nil_iff.symm)

/-- What is asked of the sources of a node has the same answer. -/
theorem any_incoming (slug : Text) {p p' : Transition → Bool}
    (hp : ∀ t t', t.source = t'.source → p t = p' t') :
    (logic.incoming slug).any p = (logic'.incoming slug).any p' := by
  rw [Bool.eq_iff_iff]
  simp only [List.any_eq_true, Logic.incoming, List.mem_filter, decide_eq_true_eq]
  constructor
  · rintro ⟨t, ⟨ht, htarget⟩, hasked⟩
    obtain ⟨t', ht', htarget', hsource⟩ :=
      (h.exists_transition_iff t.source slug).1 ⟨t, ht, htarget, rfl⟩
    exact ⟨t', ⟨ht', htarget'⟩, hp t t' hsource.symm ▸ hasked⟩
  · rintro ⟨t', ⟨ht', htarget'⟩, hasked⟩
    obtain ⟨t, ht, htarget, hsource⟩ :=
      (h.exists_transition_iff t'.source slug).2 ⟨t', ht', htarget', rfl⟩
    exact ⟨t, ⟨ht, htarget⟩, (hp t t' hsource).trans hasked⟩

end Logic.Rearranges

/-! ## What is made for a node -/

/-- Votes are counted, whoever comes first. -/
theorem Quadrant.vote_eq_of_perm {votes votes' : List Quadrant} (h : votes.Perm votes') :
    vote votes = vote votes' := by
  simp only [vote, h.count_eq]

namespace Routing

variable {α : Type} [Coordinate α]

theorem singleSentry_sameDrawing (node source : Node α) (counts : SideCounts) (index : Nat)
    (condition condition' : Text) :
    (singleSentry node source counts index condition).1.SameDrawing
        (singleSentry node source counts index condition').1 ∧
      (singleSentry node source counts index condition).2 =
        (singleSentry node source counts index condition').2 := by
  unfold singleSentry
  cases (Quadrant.of source.box node.box).isTop
  · exact ⟨⟨rfl, rfl, rfl, rfl, rfl, .refl _⟩, rfl⟩
  · exact ⟨⟨rfl, rfl, rfl, rfl, rfl, .refl _⟩, rfl⟩

theorem sharedSentry_sameDrawing (node : Node α) {sources sources' : List (Node α)}
    (h : sources.Perm sources') (counts : SideCounts) (index : Nat) (condition condition' : Text) :
    (sharedSentry node sources counts index condition).1.SameDrawing
        (sharedSentry node sources' counts index condition').1 ∧
      (sharedSentry node sources counts index condition).2 =
        (sharedSentry node sources' counts index condition').2 := by
  have hvote := Quadrant.vote_eq_of_perm (h.map fun s => Quadrant.of s.box node.box)
  unfold sharedSentry
  rw [hvote]
  cases (Quadrant.vote (sources'.map fun s => Quadrant.of s.box node.box)).isLeft
  · exact ⟨⟨rfl, rfl, rfl, rfl, rfl, h.map _⟩, rfl⟩
  · exact ⟨⟨rfl, rfl, rfl, rfl, rfl, h.map _⟩, rfl⟩

theorem loopSentry_sameDrawing (node : Node α) (counts : SideCounts) (index : Nat)
    (condition condition' : Text) :
    (loopSentry node counts index condition).SameDrawing
      (loopSentry node counts index condition') :=
  ⟨rfl, rfl, rfl, rfl, rfl, .refl _⟩

/-- The sentry of a node that others lead to, if any, and what is counted on the sides after it. -/
def jointSentry (node : Node α) (sources : List (Node α)) (index : Nat) (condition : Text) :
    List (Sentry α) × SideCounts :=
  match sources with
  | [] => ([], {})
  | [source] =>
    let (s, counts) := singleSentry node source {} index condition
    ([s], counts)
  | sources =>
    let (s, counts) := sharedSentry node sources {} index condition
    ([s], counts)

theorem jointSentry_sameDrawing (node : Node α) {sources sources' : List (Node α)}
    (h : sources.Perm sources') (index : Nat) (condition condition' : Text) :
    List.Forall₂ Sentry.SameDrawing (jointSentry node sources index condition).1
        (jointSentry node sources' index condition').1 ∧
      (jointSentry node sources index condition).2 =
        (jointSentry node sources' index condition').2 := by
  match sources with
  | [] =>
    obtain rfl := h.nil_eq
    exact ⟨.nil, rfl⟩
  | [source] =>
    obtain rfl := List.perm_singleton.1 h.symm
    have hsame := singleSentry_sameDrawing node source {} index condition condition'
    exact ⟨.cons hsame.1 .nil, hsame.2⟩
  | a :: b :: rest =>
    match sources' with
    | [] => exact absurd h.eq_nil (List.cons_ne_nil _ _)
    | [source] => exact absurd h.length_eq (by simp)
    | a' :: b' :: rest' =>
      have hsame := sharedSentry_sameDrawing node h {} index condition condition'
      exact ⟨.cons hsame.1 .nil, hsame.2⟩

/-- The sentries of a node are drawn alike if the same nodes lead to it. -/
theorem nodeSentries_sameDrawing (node : Node α) (waits : Bool) (container : Container α)
    {external external' loops loops' : List Transition} {sources sources' : List (Node α)}
    (hexternal : external = [] ↔ external' = []) (hloops : loops = [] ↔ loops' = [])
    (hsources : sources.Perm sources') :
    List.Forall₂ Sentry.SameDrawing (nodeSentries node waits container external loops sources)
      (nodeSentries node waits container external' loops' sources') := by
  have hform : ∀ (external loops : List Transition) (sources : List (Node α)),
      nodeSentries node waits container external loops sources =
        let first := if waits || external.isEmpty then
          [startSentry node container.slug container.origin 0] else []
        let joint := jointSentry node sources first.length (joinedCondition external)
        first ++ joint.1 ++ if loops.isEmpty then [] else
          [loopSentry node joint.2 (first.length + joint.1.length) (joinedCondition loops)] := by
    intro external loops sources
    match sources with
    | [] => rfl
    | [source] => rfl
    | a :: b :: rest => rfl
  have hemptyExternal : external.isEmpty = external'.isEmpty := by
    rw [Bool.eq_iff_iff, List.isEmpty_iff, List.isEmpty_iff, hexternal]
  have hemptyLoops : loops.isEmpty = loops'.isEmpty := by
    rw [Bool.eq_iff_iff, List.isEmpty_iff, List.isEmpty_iff, hloops]
  rw [hform, hform, hemptyExternal, hemptyLoops]
  generalize (if waits || external'.isEmpty then
    [startSentry node container.slug container.origin 0] else []) = first
  obtain ⟨hjoint, hcounts⟩ := jointSentry_sameDrawing node hsources first.length
    (joinedCondition external) (joinedCondition external')
  refine List.rel_append (List.rel_append (List.forall₂_same.2 fun s _ => .refl s) hjoint) ?_
  rw [hcounts, hjoint.length_eq]
  split
  · exact .nil
  · exact .cons (loopSentry_sameDrawing ..) .nil

variable {logic logic' : Logic}

theorem sentriesAt_sameDrawing (h : logic.Rearranges logic') (d : Diagram α)
    (container : Container α) (place : Nat) (n : Node α) :
    List.Forall₂ Sentry.SameDrawing (sentriesAt logic d container place n)
      (sentriesAt logic' d container place n) := by
  have hentered : isEntered logic d.containers container.slug n (logic.incoming n.slug) =
      isEntered logic' d.containers container.slug n (logic'.incoming n.slug) := by
    unfold isEntered
    refine congrArg _ (h.any_incoming n.slug fun t t' hsource => ?_)
    rw [hsource, h.position?_eq, h.position?_eq]
  unfold sentriesAt waitsFor
  rw [hentered]
  exact nodeSentries_sameDrawing n _ container (h.external_eq_nil_iff n.slug)
    (h.loops_eq_nil_iff n.slug) ((h.perm_sourcesOf_external n.slug).filterMap _)

end Routing

open Routing

/-- Two descriptions of the same tasks and stages, with transitions between the same tasks, have
one layout, and it is routed alike: every node gets sentries of the same kinds and numbers on the
same sides, with the same boxes and edges.  Only the order of the edges and the conditions may
differ. -/
theorem route_of_rearranges {raw raw' : Json} {logic logic' : Logic}
    (h : Logic.parse raw = .ok logic) (h' : Logic.parse raw' = .ok logic')
    (hsame : logic.Rearranges logic') (mode : LayoutMode) :
    ∃ d routed routed', layOut mode logic = .ok d ∧ layOut mode logic' = .ok d ∧
      route logic d = .ok routed ∧ route logic' d = .ok routed' ∧
      routed.map Prod.fst = d.inOrder.map (·.slug) ∧
      List.Forall₂ (fun entry entry' => entry.1 = entry'.1 ∧
        List.Forall₂ Sentry.SameDrawing entry.2 entry'.2) routed routed' := by
  have hc := consistent_of_parse h
  have hc' := consistent_of_parse h'
  have hd := Layout.depicts_diagram mode logic
  have hlayout := Layout.layOut_eq_ok hc mode
  have hlayout' : layOut mode logic' = .ok (Layout.diagram mode logic) :=
    (Layout.layOut_congr hsame.tasks hsame.stages mode).symm.trans hlayout
  have hd' : (Layout.diagram mode logic).Depicts logic' := by
    have hdiagram := Layout.depicts_diagram mode logic'
    rwa [Except.ok.inj ((Layout.layOut_eq_ok hc' mode).symm.trans hlayout')] at hdiagram
  refine ⟨_, _, _, hlayout, hlayout', route_eq_ok hd hc, route_eq_ok hd' hc', ?_, ?_⟩
  · exact map_fst_routed ..
  · rw [List.flatMap_def, List.flatMap_def]
    refine List.rel_flatten (List.forall₂_map_left_iff.2 (List.forall₂_map_right_iff.2
      (List.forall₂_same.2 fun container _ => ?_)))
    unfold routedIn
    exact List.forall₂_map_left_iff.2 (List.forall₂_map_right_iff.2 (List.forall₂_same.2
      fun x _ => ⟨rfl, sentriesAt_sameDrawing hsame _ container x.2 x.1⟩))

namespace Logic

/-- A description whose transitions are all declared by the conditions of one pattern. -/
def gathered : Logic where
  tasks := [{ slug := "draft", displayName := "Draft", outcomes := ["done"] },
    { slug := "price", displayName := "Price", outcomes := ["done"] },
    { slug := "review", displayName := "Review", outcomes := ["accepted", "again"] }]
  patterns :=
    [⟨.parallel, ["draft", "price", "review"],
      [{ source := "draft", target := "review", outcome := "done" },
        { source := "price", target := "review", outcome := "done" },
        { source := "review", target := "review", outcome := "again" }]⟩]
  stages := [{ slug := "check", displayName := "Check", members := ["review"] }]

/-- The same tasks and stages, with transitions from several patterns in another order, one of them
twice. -/
def scattered : Logic where
  tasks := gathered.tasks
  patterns :=
    [⟨.conditional, ["price", "review"],
        [{ source := "review", target := "review", outcome := "accepted" }]⟩,
      ⟨.sequential, ["draft", "review"], []⟩, ⟨.sequential, ["price", "review"], []⟩]
  stages := gathered.stages

theorem rearranges_scattered : gathered.Rearranges scattered where
  tasks := rfl
  stages := rfl
  ends := by
    have hforth : ∀ ends ∈ gathered.transitions.map Transition.ends,
        ends ∈ scattered.transitions.map Transition.ends := by decide +kernel
    have hback : ∀ ends ∈ scattered.transitions.map Transition.ends,
        ends ∈ gathered.transitions.map Transition.ends := by decide +kernel
    exact fun ends => ⟨hforth ends, hback ends⟩

end Logic

/-- The two descriptions are routed alike. -/
theorem route_of_rearranges_scattered : ∃ d routed routed',
    layOut .alternating Logic.gathered = .ok d ∧ layOut .alternating Logic.scattered = .ok d ∧
      route Logic.gathered d = .ok routed ∧ route Logic.scattered d = .ok routed' ∧
      routed.map Prod.fst = d.inOrder.map (·.slug) ∧
      List.Forall₂ (fun entry entry' => entry.1 = entry'.1 ∧
        List.Forall₂ Sentry.SameDrawing entry.2 entry'.2) routed routed' :=
  have hgathered : Logic.parse Logic.gathered.toJson = .ok Logic.gathered := by rfl
  have hscattered : Logic.parse Logic.scattered.toJson = .ok Logic.scattered := by rfl
  route_of_rearranges hgathered hscattered Logic.rearranges_scattered .alternating

end CasePlan
