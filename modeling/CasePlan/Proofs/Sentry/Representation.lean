import CasePlan.Proofs.Diagram.Tree
import CasePlan.Proofs.Logic.Transition
import CasePlan.Sentry.Routing

/-!
# Sentries represent the transitions

Routing lists the nodes of a diagram in order and gives each of them sentries that say exactly when
it may start: with its container, when the tasks that lead to it have ended, or when it has ended
itself.

* `Node.GuardedBy`: what the sentries of one node say.
* `nodeSentries_eq`, `made_of_mem_nodeSentries`: which sentries are made for a node, one after the
  other.
* `nodeSentries_guarded`: they say what they should, each part for itself (`OneIf`).
* `route_eq_ok`, `forall₂_routed`: routing does not fail, and lists the nodes in order.
* `route_represents`: the statement about whole diagrams; `route_layOut` about descriptions.
-/

namespace CasePlan

/-! ## What sentries should say -/

namespace Logic

/-- The transitions to a slug, in order. -/
def incoming (logic : Logic) (slug : Text) : List Transition :=
  logic.transitions.filter (·.target = slug)

/-- The transitions to a slug from others, in order. -/
def external (logic : Logic) (slug : Text) : List Transition :=
  (logic.incoming slug).filter (!·.isSelfLoop)

/-- The transitions of a slug to itself, in order. -/
def loops (logic : Logic) (slug : Text) : List Transition :=
  (logic.incoming slug).filter (·.isSelfLoop)

variable {logic : Logic} {slug : Text} {t : Transition}

theorem mem_external :
    t ∈ logic.external slug ↔ t ∈ logic.transitions ∧ t.target = slug ∧ t.source ≠ slug := by
  simp only [external, incoming, List.mem_filter, decide_eq_true_eq, Transition.isSelfLoop,
    Bool.not_eq_true', decide_eq_false_iff_not, and_assoc]
  constructor
  · rintro ⟨ht, rfl, hne⟩
    exact ⟨ht, rfl, hne⟩
  · rintro ⟨ht, rfl, hne⟩
    exact ⟨ht, rfl, hne⟩

theorem mem_loops :
    t ∈ logic.loops slug ↔ t ∈ logic.transitions ∧ t.target = slug ∧ t.source = slug := by
  simp only [loops, incoming, List.mem_filter, decide_eq_true_eq, Transition.isSelfLoop, and_assoc]
  constructor
  · rintro ⟨ht, rfl, h⟩
    exact ⟨ht, rfl, h⟩
  · rintro ⟨ht, rfl, h⟩
    exact ⟨ht, rfl, h⟩

theorem external_ne_nil_iff : logic.external slug ≠ [] ↔
    ∃ t ∈ logic.transitions, t.target = slug ∧ t.source ≠ slug := by
  rw [Ne, List.eq_nil_iff_forall_not_mem, not_forall_not]
  simp only [mem_external]

theorem loops_ne_nil_iff : logic.loops slug ≠ [] ↔
    ∃ t ∈ logic.transitions, t.target = slug ∧ t.source = slug := by
  rw [Ne, List.eq_nil_iff_forall_not_mem, not_forall_not]
  simp only [mem_loops]

end Logic

variable {α : Type} {logic : Logic} {d : Diagram α}

/-- A node opens its container: it is the first there, and no earlier task of another container
leads to it. -/
def Node.Opens [Coordinate α] (logic : Logic) (d : Diagram α) (n : Node α) : Prop :=
  ∃ c ∈ d.containers, c.members.head? = some n ∧
    Routing.isEntered logic d.containers c.slug n (logic.incoming n.slug) = false

/-- The first node at the top opens the main stage. -/
theorem Node.opens_of_head? [Coordinate α] {n : Node α} (h : d.nodes.head? = some n) :
    n.Opens logic d :=
  ⟨_, List.mem_cons_self, h, by simp [Routing.isEntered]⟩

/-- Sentries say when a node may start. -/
structure Node.GuardedBy [Coordinate α] (logic : Logic) (d : Diagram α) (n : Node α)
    (sentries : List (Sentry α)) : Prop where
  /-- There is a sentry. -/
  ne_nil : sentries ≠ []
  /-- They are the node's. -/
  owner : ∀ s ∈ sentries, s.owner = n.slug
  /-- They are numbered. -/
  index : sentries.map (·.index) = List.range sentries.length
  /-- There is at most one of a kind, and they come in this order. -/
  kind : (sentries.map (·.kind)).Sublist [.start, .transition, .selfLoop]
  /-- Edges lead to the node. -/
  target : ∀ s ∈ sentries, ∀ e ∈ s.edges, e.target = n.slug
  /-- A node that no other leads to starts with its container. -/
  start_of_unreached : (∀ t ∈ logic.transitions, t.target = n.slug → t.source = n.slug) →
    ∃ s ∈ sentries, s.kind = .start
  /-- The first node at the top starts with its container. -/
  start_of_first : d.nodes.head? = some n → ∃ s ∈ sentries, s.kind = .start
  /-- Of the other nodes those do that open their container. -/
  start_iff : (∃ s ∈ sentries, s.kind = .start) ↔ logic.external n.slug = [] ∨ n.Opens logic d
  /-- A start sentry waits for the start of the container, and for nothing else. -/
  start : ∀ s ∈ sentries, s.kind = .start →
    s.condition = [] ∧ ∃ e, s.edges = [e] ∧ e.source = n.parent.getD rootContainer ∧ e.event = .start
  /-- Another sentry is there exactly if others lead to the node. -/
  transition_iff : (∃ s ∈ sentries, s.kind = .transition) ↔
    ∃ t ∈ logic.transitions, t.target = n.slug ∧ t.source ≠ n.slug
  /-- It waits for the completion of each of them, in the order in which they come first, and has
  the conditions of all of them. -/
  transition : ∀ s ∈ sentries, s.kind = .transition →
    s.edges.map (fun e => (e.source, e.event)) =
        (((logic.external n.slug).map (·.source)).eraseDups.map fun slug => (slug, .complete)) ∧
      s.condition = Expression.condition ((logic.external n.slug).filterMap (·.condition))
  /-- Another one is there exactly if the node leads to itself. -/
  selfLoop_iff : (∃ s ∈ sentries, s.kind = .selfLoop) ↔
    ∃ t ∈ logic.transitions, t.target = n.slug ∧ t.source = n.slug
  /-- It waits for the completion of the node, and has the conditions of these transitions. -/
  selfLoop : ∀ s ∈ sentries, s.kind = .selfLoop →
    s.edges.map (fun e => (e.source, e.event)) = [(n.slug, .complete)] ∧
      s.condition = Expression.condition ((logic.loops n.slug).filterMap (·.condition))

namespace Routing

/-! ## One sentry or none -/

/-- There is one sentry, which is as described, if the condition holds, and otherwise none. -/
def OneIf (p : Prop) (q : Sentry α → Prop) (sentries : List (Sentry α)) : Prop :=
  (p ∧ ∃ s, sentries = [s] ∧ q s) ∨ (¬p ∧ sentries = [])

variable {p : Prop} {q : Sentry α → Prop} {sentries : List (Sentry α)}

theorem OneIf.of_mem (h : OneIf p q sentries) {s : Sentry α} (hs : s ∈ sentries) : q s := by
  rcases h with ⟨-, s', rfl, hq⟩ | ⟨-, rfl⟩
  · rwa [List.mem_singleton.1 hs]
  · simp at hs

theorem OneIf.exists_mem_iff (h : OneIf p q sentries) : (∃ s, s ∈ sentries) ↔ p := by
  rcases h with ⟨hp, s, rfl, -⟩ | ⟨hp, rfl⟩
  · exact ⟨fun _ => hp, fun _ => ⟨s, List.mem_singleton_self s⟩⟩
  · exact ⟨fun ⟨s, hs⟩ => absurd hs (by simp), fun h => absurd h hp⟩

theorem OneIf.map_kind_sublist (h : OneIf p q sentries) {k : SentryKind}
    (hk : ∀ s, q s → s.kind = k) : (sentries.map (·.kind)).Sublist [k] := by
  rcases h with ⟨-, s, rfl, hq⟩ | ⟨-, rfl⟩
  · rw [List.map_singleton, hk s hq]
  · exact List.nil_sublist _

theorem OneIf.map_index (h : OneIf p q sentries) {i : Nat} (hi : ∀ s, q s → s.index = i) :
    sentries.map (·.index) = List.range' i sentries.length := by
  rcases h with ⟨-, s, rfl, hq⟩ | ⟨-, rfl⟩
  · rw [List.map_singleton, hi s hq]
    rfl
  · rfl

theorem OneIf.toList_ite [Decidable p] {s : Sentry α} (h : q s) :
    OneIf p q (if p then some s else none).toList := by
  by_cases hp : p
  · exact .inl ⟨hp, s, by rw [if_pos hp, Option.toList_some], h⟩
  · exact .inr ⟨hp, by rw [if_neg hp, Option.toList_none]⟩

/-! ## The sentries that are made -/

/-- What a sentry says: its item, number and kind, the events it waits for, and its condition. -/
structure Tells (slug : Text) (number : Nat) (reason : SentryKind) (awaited : List (Text × Event))
    (expression : Text) (s : Sentry α) : Prop where
  /-- Its item. -/
  owner : s.owner = slug
  /-- Its number. -/
  index : s.index = number
  /-- Its kind. -/
  kind : s.kind = reason
  /-- The events that it waits for. -/
  edges : s.edges.map (fun e => (e.source, e.event)) = awaited
  /-- Its condition. -/
  condition : s.condition = expression
  /-- Its edges lead to its item. -/
  target : ∀ e ∈ s.edges, e.target = slug

variable [Coordinate α]

theorem startSentry_tells (node : Node α) (container : Text) (origin : Point α) (index : Nat) :
    Tells node.slug index .start [(container, .start)] [] (startSentry node container origin index) :=
  ⟨rfl, rfl, rfl, rfl, rfl, by simp [startSentry]⟩

theorem loopSentry_tells (node : Node α) (counts : SideCounts) (index : Nat) (condition : Text) :
    Tells node.slug index .selfLoop [(node.slug, .complete)] condition
      (loopSentry node counts index condition) :=
  ⟨rfl, rfl, rfl, rfl, rfl, by simp [loopSentry, edge]⟩

theorem singleSentry_tells (node source : Node α) (counts : SideCounts) (index : Nat)
    (condition : Text) :
    Tells node.slug index .transition [(source.slug, .complete)] condition
      (singleSentry node source counts index condition).1 := by
  unfold singleSentry
  cases (Quadrant.of source.box node.box).isTop
  · exact ⟨rfl, rfl, rfl, rfl, rfl, by simp [edge]⟩
  · exact ⟨rfl, rfl, rfl, rfl, rfl, by simp [edge]⟩

theorem sharedSentry_tells (node : Node α) (sources : List (Node α)) (counts : SideCounts)
    (index : Nat) (condition : Text) :
    Tells node.slug index .transition (sources.map fun n => (n.slug, .complete)) condition
      (sharedSentry node sources counts index condition).1 := by
  unfold sharedSentry
  cases (Quadrant.vote (sources.map fun s => Quadrant.of s.box node.box)).isLeft
  · exact ⟨rfl, rfl, rfl, by simp [edge, Function.comp_def], rfl, by simp [edge]⟩
  · exact ⟨rfl, rfl, rfl, by simp [edge, Function.comp_def], rfl, by simp [edge]⟩

/-- The sentry that the transitions from other nodes share, and what is counted on the sides after
it. -/
inductive Joint (node : Node α) (sources : List (Node α)) (index : Nat) (condition : Text) :
    Option (Sentry α) → SideCounts → Prop
  /-- No node leads here. -/
  | none : sources = [] → Joint node sources index condition none {}
  /-- One node leads here. -/
  | single {source : Node α} : sources = [source] →
      Joint node sources index condition (some (singleSentry node source {} index condition).1)
        (singleSentry node source {} index condition).2
  /-- Several nodes lead here. -/
  | several : sources ≠ [] →
      Joint node sources index condition (some (sharedSentry node sources {} index condition).1)
        (sharedSentry node sources {} index condition).2

/-- A node has a start sentry or none, then a shared one or none, then one for itself or none. -/
theorem nodeSentries_eq (node : Node α) (waits : Bool) (container : Container α)
    (external loops : List Transition) (sources : List (Node α)) :
    ∃ (first shared last : Option (Sentry α)) (counts : SideCounts),
      nodeSentries node waits container external loops sources =
        first.toList ++ shared.toList ++ last.toList ∧
      first = (if waits = true ∨ external = [] then
        some (startSentry node container.slug container.origin 0) else none) ∧
      Joint node sources first.toList.length (joinedCondition external) shared counts ∧
      last = if loops ≠ [] then some (loopSentry node counts
        (first.toList.length + shared.toList.length) (joinedCondition loops)) else none := by
  have hfirst : (if waits || external.isEmpty then
      [startSentry node container.slug container.origin 0] else []) =
      (if waits = true ∨ external = [] then
        some (startSentry node container.slug container.origin 0) else none).toList := by
    by_cases h : waits = true ∨ external = []
    · rw [if_pos h, if_pos (by simpa using h), Option.toList_some]
    · rw [if_neg h, if_neg (by simpa using h), Option.toList_none]
  have hlast : ∀ (counts : SideCounts) (index : Nat),
      (if loops.isEmpty then [] else [loopSentry node counts index (joinedCondition loops)]) =
      (if loops ≠ [] then
        some (loopSentry node counts index (joinedCondition loops)) else none).toList := by
    intro counts index
    by_cases h : loops = []
    · rw [if_neg (not_not.2 h), if_pos (by simpa using h), Option.toList_none]
    · rw [if_pos h, if_neg (by simpa using h), Option.toList_some]
  unfold nodeSentries
  rw [hfirst]
  match sources with
  | [] => exact ⟨_, none, _, _, congrArg _ (hlast ..), rfl, .none rfl, rfl⟩
  | [source] => exact ⟨_, some _, _, _, congrArg _ (hlast ..), rfl, .single rfl, rfl⟩
  | source :: other :: rest =>
    exact ⟨_, some _, _, _, congrArg _ (hlast ..), rfl, .several (by simp), rfl⟩

/-- The sentries that a node can get. -/
inductive Made (node : Node α) (container : Container α) (loops : List Transition)
    (sources : List (Node α)) : Sentry α → Prop
  /-- A start sentry. -/
  | start : Made node container loops sources
      (startSentry node container.slug container.origin 0)
  /-- One for a single node that leads here. -/
  | single {source : Node α} (index : Nat) (condition : Text) : source ∈ sources →
      Made node container loops sources (singleSentry node source {} index condition).1
  /-- One for several nodes that lead here. -/
  | several (index : Nat) (condition : Text) : sources ≠ [] →
      Made node container loops sources (sharedSentry node sources {} index condition).1
  /-- One for the node itself, on the first or the second place of its edge. -/
  | loop (counts : SideCounts) (index : Nat) (condition : Text) : loops ≠ [] → counts.top ≤ 1 →
      Made node container loops sources (loopSentry node counts index condition)

theorem Joint.top_le_one {node : Node α} {sources : List (Node α)} {index : Nat} {condition : Text}
    {shared : Option (Sentry α)} {counts : SideCounts}
    (h : Joint node sources index condition shared counts) : counts.top ≤ 1 := by
  cases h with
  | none => exact Nat.zero_le 1
  | @single source _ =>
    simp only [singleSentry]
    cases (Quadrant.of source.box node.box).isTop
    · exact Nat.zero_le 1
    · exact Nat.le_refl 1
  | several _ =>
    simp only [sharedSentry]
    cases (Quadrant.vote (sources.map fun s => Quadrant.of s.box node.box)).isLeft
    · exact Nat.zero_le 1
    · exact Nat.zero_le 1

theorem made_of_mem_nodeSentries {node : Node α} {waits : Bool} {container : Container α}
    {external loops : List Transition} {sources : List (Node α)} {s : Sentry α}
    (hs : s ∈ nodeSentries node waits container external loops sources) :
    Made node container loops sources s := by
  obtain ⟨first, shared, last, counts, heq, hfirst, hjoint, hlast⟩ :=
    nodeSentries_eq node waits container external loops sources
  rw [heq, List.mem_append, List.mem_append, Option.mem_toList, Option.mem_toList,
    Option.mem_toList] at hs
  rcases hs with (hs | hs) | hs
  · rw [hfirst, Option.ite_none_right_eq_some] at hs
    obtain rfl := Option.some.inj hs.2
    exact .start
  · cases hjoint with
    | none => exact absurd hs (by simp)
    | single h =>
      obtain rfl := Option.some.inj hs
      exact .single _ _ (h ▸ List.mem_singleton_self _)
    | several h =>
      obtain rfl := Option.some.inj hs
      exact .several _ _ h
  · rw [hlast, Option.ite_none_right_eq_some] at hs
    obtain rfl := Option.some.inj hs.2
    exact .loop _ _ _ hs.1 hjoint.top_le_one

theorem sourcesOf_eq_nil_iff {transitions : List Transition} :
    sourcesOf transitions = [] ↔ transitions = [] := by
  rw [sourcesOf, List.eq_nil_iff_forall_not_mem, List.eq_nil_iff_forall_not_mem]
  simp

/-- The sentries of a node are a start sentry, a shared one and one for itself, each if there is
reason for it. -/
theorem nodeSentries_parts (node : Node α) (waits : Bool) (container : Container α)
    {external : List Transition} (loops : List Transition) {sources : List (Node α)}
    (hsources : sources.map (·.slug) = sourcesOf external) :
    ∃ first shared last,
      nodeSentries node waits container external loops sources = first ++ shared ++ last ∧
      OneIf (waits = true ∨ external = [])
        (Tells node.slug 0 .start [(container.slug, .start)] []) first ∧
      OneIf (external ≠ [])
        (Tells node.slug first.length .transition
          ((sourcesOf external).map fun slug => (slug, .complete)) (joinedCondition external))
        shared ∧
      OneIf (loops ≠ [])
        (Tells node.slug (first.length + shared.length) .selfLoop [(node.slug, .complete)]
          (joinedCondition loops)) last := by
  obtain ⟨first, shared, last, counts, heq, hfirst, hjoint, hlast⟩ :=
    nodeSentries_eq node waits container external loops sources
  have hnil : sources = [] ↔ external = [] := by
    rw [← List.map_eq_nil_iff, hsources, sourcesOf_eq_nil_iff]
  refine ⟨first.toList, shared.toList, last.toList, heq, ?_, ?_, ?_⟩
  · rw [hfirst]
    exact .toList_ite (startSentry_tells ..)
  · rw [← hsources, List.map_map]
    cases hjoint with
    | none h => exact .inr ⟨not_not.2 (hnil.1 h), rfl⟩
    | single h =>
      refine .inl ⟨fun hexternal => absurd (hnil.2 hexternal) (by simp [h]), _, rfl, ?_⟩
      rw [h]
      exact singleSentry_tells ..
    | several h => exact .inl ⟨fun hexternal => h (hnil.2 hexternal), _, rfl, sharedSentry_tells ..⟩
  · rw [hlast]
    exact .toList_ite (loopSentry_tells ..)

omit [Coordinate α] in
/-- Of three parts, one for each kind, every one is made of the sentries of its kind. -/
theorem mem_part_iff {first shared last : List (Sentry α)} (h1 : ∀ s ∈ first, s.kind = .start)
    (h2 : ∀ s ∈ shared, s.kind = .transition) (h3 : ∀ s ∈ last, s.kind = .selfLoop)
    (s : Sentry α) :
    (s ∈ first ++ shared ++ last ∧ s.kind = .start ↔ s ∈ first) ∧
      (s ∈ first ++ shared ++ last ∧ s.kind = .transition ↔ s ∈ shared) ∧
      (s ∈ first ++ shared ++ last ∧ s.kind = .selfLoop ↔ s ∈ last) := by
  grind

/-- The sentries made for a node say when it may start. -/
theorem nodeSentries_guarded {node : Node α} {waits : Bool} {container : Container α}
    {sources : List (Node α)} (hsources : sources.map (·.slug) = sourcesOf (logic.external node.slug))
    (hcontainer : container.slug = node.parent.getD rootContainer)
    (hopens : waits = true ↔ node.Opens logic d) :
    node.GuardedBy logic d (nodeSentries node waits container (logic.external node.slug)
      (logic.loops node.slug) sources) := by
  obtain ⟨first, shared, last, heq, h1, h2, h3⟩ :=
    nodeSentries_parts node waits container (logic.loops node.slug) hsources
  have hpart := mem_part_iff (fun s hs => (h1.of_mem hs).kind) (fun s hs => (h2.of_mem hs).kind)
    (fun s hs => (h3.of_mem hs).kind)
  have hstart := fun s => (hpart s).1
  have htransition := fun s => (hpart s).2.1
  have hloop := fun s => (hpart s).2.2
  have hone : ∀ s ∈ first ++ shared ++ last,
      s.owner = node.slug ∧ ∀ e ∈ s.edges, e.target = node.slug := by
    rw [List.forall_mem_append, List.forall_mem_append]
    exact ⟨⟨fun s hs => ⟨(h1.of_mem hs).owner, (h1.of_mem hs).target⟩,
      fun s hs => ⟨(h2.of_mem hs).owner, (h2.of_mem hs).target⟩⟩,
      fun s hs => ⟨(h3.of_mem hs).owner, (h3.of_mem hs).target⟩⟩
  have hstarts : (∃ s ∈ first ++ shared ++ last, s.kind = .start) ↔
      waits = true ∨ logic.external node.slug = [] := by
    simp only [hstart, h1.exists_mem_iff]
  have htransitions : (∃ s ∈ first ++ shared ++ last, s.kind = .transition) ↔
      logic.external node.slug ≠ [] := by
    simp only [htransition, h2.exists_mem_iff]
  rw [heq]
  constructor
  case ne_nil =>
    -- a node that no other leads to has a start sentry
    intro hnil
    rw [hnil] at hstarts htransitions
    simp only [List.not_mem_nil, false_and, exists_false, false_iff, not_not] at hstarts htransitions
    exact hstarts (.inr htransitions)
  case owner => exact fun s hs => (hone s hs).1
  case index =>
    rw [List.map_append, List.map_append, h1.map_index fun _ h => h.index,
      h2.map_index fun _ h => h.index, h3.map_index fun _ h => h.index, List.length_append,
      List.length_append, List.range_eq_range', ← List.range'_append_1, ← List.range'_append_1,
      Nat.zero_add, Nat.zero_add]
  case kind =>
    rw [List.map_append, List.map_append]
    exact ((h1.map_kind_sublist fun _ h => h.kind).append
      (h2.map_kind_sublist fun _ h => h.kind)).append (h3.map_kind_sublist fun _ h => h.kind)
  case target => exact fun s hs => (hone s hs).2
  case start_of_unreached =>
    intro h
    refine hstarts.2 (.inr (not_not.1 fun hne => ?_))
    obtain ⟨t, ht, htarget, hsource⟩ := Logic.external_ne_nil_iff.1 hne
    exact hsource (h t ht htarget)
  case start_of_first => exact fun h => hstarts.2 (.inl (hopens.2 (Node.opens_of_head? h)))
  case start_iff => rw [hstarts, hopens, or_comm]
  case start =>
    intro s hs hk
    have h := h1.of_mem ((hstart s).1 ⟨hs, hk⟩)
    refine ⟨h.condition, ?_⟩
    obtain ⟨e, he, hevent⟩ := List.map_eq_singleton_iff.1 h.edges
    rw [Prod.mk.injEq] at hevent
    exact ⟨e, he, hevent.1.trans hcontainer, hevent.2⟩
  case transition_iff => rw [htransitions, Logic.external_ne_nil_iff]
  case transition =>
    intro s hs hk
    have h := h2.of_mem ((htransition s).1 ⟨hs, hk⟩)
    exact ⟨h.edges, h.condition⟩
  case selfLoop_iff => simp only [hloop, h3.exists_mem_iff, Logic.loops_ne_nil_iff]
  case selfLoop =>
    intro s hs hk
    have h := h3.of_mem ((hloop s).1 ⟨hs, hk⟩)
    exact ⟨h.edges, h.condition⟩

/-! ## Routing a diagram -/

/-- The nodes that lead to a node. -/
def sourceNodes (logic : Logic) (d : Diagram α) (n : Node α) : List (Node α) :=
  (sourcesOf (logic.external n.slug)).filterMap d.find?

/-- Whether a node starts with its container although others lead to it. -/
def waitsFor (logic : Logic) (d : Diagram α) (container : Container α) (place : Nat)
    (n : Node α) : Bool :=
  place == 0 && !isEntered logic d.containers container.slug n (logic.incoming n.slug)

/-- The sentries that a node gets. -/
def sentriesAt (logic : Logic) (d : Diagram α) (container : Container α) (place : Nat)
    (n : Node α) : List (Sentry α) :=
  nodeSentries n (waitsFor logic d container place n) container (logic.external n.slug)
    (logic.loops n.slug) (sourceNodes logic d n)

omit [Coordinate α] in
/-- Every source of a transition has a node. -/
theorem forall₂_sourceNodes (hd : d.Depicts logic) (hc : logic.Consistent) (n : Node α) :
    List.Forall₂ (fun slug m => d.find? slug = some m ∧ m.slug = slug)
      (sourcesOf (logic.external n.slug)) (sourceNodes logic d n) := by
  have hmem : ∀ slug ∈ sourcesOf (logic.external n.slug), slug ∈ logic.slugs := by
    intro slug h
    rw [sourcesOf, List.mem_eraseDups, List.mem_map] at h
    obtain ⟨t, ht, rfl⟩ := h
    exact (hc.ends_mem_slugs (Logic.mem_external.1 ht).1).1
  unfold sourceNodes
  generalize sourcesOf (logic.external n.slug) = slugs at hmem
  induction slugs with
  | nil => exact .nil
  | cons slug slugs ih =>
    obtain ⟨m, -, hm, hfind⟩ := hd.find?_task hc (hmem slug List.mem_cons_self)
    rw [List.filterMap_cons_some hfind]
    exact .cons ⟨hfind, hm⟩ (ih fun s hs => hmem s (List.mem_cons_of_mem _ hs))

omit [Coordinate α] in
theorem map_slug_sourceNodes (hd : d.Depicts logic) (hc : logic.Consistent) (n : Node α) :
    (sourceNodes logic d n).map (·.slug) = sourcesOf (logic.external n.slug) := by
  have h := forall₂_sourceNodes hd hc n
  generalize sourcesOf (logic.external n.slug) = slugs, sourceNodes logic d n = nodes at h
  induction h with
  | nil => rfl
  | cons hm _ ih => rw [List.map_cons, hm.2, ih]

omit [Coordinate α] in
/-- No source of a transition is missing. -/
theorem mapM_find?_sources (hd : d.Depicts logic) (hc : logic.Consistent) (n : Node α) :
    (sourcesOf (logic.external n.slug)).mapM (fun slug =>
      match d.find? slug with
      | some source => Except.ok source
      | none => .error slug) = .ok (sourceNodes logic d n) := by
  refine mapM_eq_ok_iff.2 ((forall₂_sourceNodes hd hc n).imp ?_)
  rintro slug m ⟨h, -⟩
  rw [h]

theorem routeNode_eq_ok (hd : d.Depicts logic) (hc : logic.Consistent) (container : Container α)
    (place : Nat) (n : Node α) :
    routeNode logic d logic.transitions container place n =
      .ok (sentriesAt logic d container place n) := by
  unfold routeNode
  rw [bind_eq_ok_iff]
  exact ⟨_, mapM_find?_sources hd hc n, rfl⟩

/-- What routing lists for the nodes of a container. -/
def routedIn (logic : Logic) (d : Diagram α) (container : Container α) :
    List (Text × List (Sentry α)) :=
  container.members.zipIdx.map fun x => (x.1.slug, sentriesAt logic d container x.2 x.1)

theorem map_fst_routedIn (logic : Logic) (d : Diagram α) (container : Container α) :
    (routedIn logic d container).map Prod.fst = container.members.map (·.slug) := by
  rw [routedIn, List.map_map]
  show container.members.zipIdx.map ((·.slug) ∘ Prod.fst) = _
  rw [← List.map_map, List.zipIdx_map_fst]

end Routing

open Routing

variable [Coordinate α]

/-- The containers hold the nodes in order. -/
theorem Diagram.flatMap_members_containers (d : Diagram α) :
    d.containers.flatMap (·.members) = d.inOrder := by
  have hfilter : ∀ ns : List (Node α),
      (ns.filter (!·.children.isEmpty)).flatMap (·.children) = ns.flatMap (·.children) := by
    intro ns
    induction ns with
    | nil => rfl
    | cons n ns ih =>
      rw [List.filter_cons, List.flatMap_cons]
      cases h : n.children with
      | nil => simpa [h] using ih
      | cons c cs => simpa [h] using ih
  rw [containers, List.flatMap_cons, List.flatMap_map, hfilter, inOrder]

theorem Diagram.mem_inOrder_iff_mem_members {n : Node α} :
    n ∈ d.inOrder ↔ ∃ container ∈ d.containers, n ∈ container.members := by
  rw [← d.flatMap_members_containers, List.mem_flatMap]

/-- No node is in two containers, or in one twice. -/
theorem Diagram.Depicts.nodup_members (hd : d.Depicts logic) (hc : logic.Consistent) :
    (d.containers.flatMap (·.members)).Nodup := by
  rw [d.flatMap_members_containers]
  exact List.Nodup.of_map _ (hd.nodup_inOrder hc)

/-- Every node is in a container. -/
theorem Diagram.isSome_containerOf? {n : Node α} (hn : n ∈ d.inOrder) :
    (containerOf? d.containers n.slug).isSome = true := by
  obtain ⟨container, hmem, hn⟩ := Diagram.mem_inOrder_iff_mem_members.1 hn
  rw [containerOf?, Option.isSome_map, List.find?_isSome]
  exact ⟨container, List.mem_reverse.2 hmem, List.any_eq_true.2 ⟨n, hn, decide_eq_true rfl⟩⟩

/-- A node starts with its container exactly if it opens it: it has one container and one place
there. -/
theorem waitsFor_eq_true_iff (hd : d.Depicts logic) (hc : logic.Consistent)
    {container : Container α} (hmem : container ∈ d.containers) {n : Node α} {place : Nat}
    (hn : (n, place) ∈ container.members.zipIdx) :
    waitsFor logic d container place n = true ↔ n.Opens logic d := by
  have hnodup := hd.nodup_members hc
  have hplace : container.members[place]? = some n := List.mem_zipIdx_iff_getElem?.1 hn
  unfold waitsFor
  rw [Bool.and_eq_true, beq_iff_eq, Bool.not_eq_true']
  constructor
  · rintro ⟨rfl, hentered⟩
    exact ⟨container, hmem, List.head?_eq_getElem?.trans hplace, hentered⟩
  · rintro ⟨other, hother, hhead, hentered⟩
    obtain rfl : other = container := eq_of_nodup_flatMap hnodup hother hmem
      (List.mem_of_mem_head? hhead) (List.fst_mem_of_mem_zipIdx hn)
    refine ⟨?_, hentered⟩
    have hnd := (List.nodup_flatMap.1 hnodup).1 other hmem
    have hlt : place < other.members.length := (List.getElem?_eq_some_iff.1 hplace).1
    exact (List.getElem?_inj hlt hnd).1
      (hplace.trans (List.head?_eq_getElem?.symm.trans hhead).symm)

/-- A node is in the container that its edges name. -/
theorem Diagram.Depicts.container_slug (hd : d.Depicts logic) {container : Container α}
    (hmem : container ∈ d.containers) {n : Node α} (hn : n ∈ container.members) :
    container.slug = n.parent.getD rootContainer := by
  rw [Diagram.containers, List.mem_cons, List.mem_map] at hmem
  rcases hmem with rfl | ⟨parent, hparent, rfl⟩
  · rw [hd.parent_eq_none hn]
    rfl
  · obtain ⟨member, h⟩ := hd.showsMember (List.mem_of_mem_filter hparent) hn
    rw [h.parent]
    rfl

/-- Every node in order has an entry. -/
theorem map_fst_routed (logic : Logic) (d : Diagram α) :
    (d.containers.flatMap (routedIn logic d)).map Prod.fst = d.inOrder.map (·.slug) := by
  rw [List.map_flatMap]
  simp only [map_fst_routedIn]
  rw [← List.map_flatMap, d.flatMap_members_containers]

/-- Routing a diagram of a consistent description does not fail. -/
theorem route_eq_ok (hd : d.Depicts logic) (hc : logic.Consistent) :
    route logic d = .ok (d.containers.flatMap (routedIn logic d)) := by
  have hinner : ∀ container : Container α, container.members.zipIdx.mapM (fun x =>
      (routeNode logic d logic.transitions container x.2 x.1).map (x.1.slug, ·)) =
        .ok (routedIn logic d container) := by
    intro container
    refine mapM_eq_ok_map fun x _ => ?_
    rw [routeNode_eq_ok hd hc]
    rfl
  have hkeys : ((d.containers.flatMap (routedIn logic d)).map Prod.fst).Nodup := by
    rw [map_fst_routed]
    exact hd.nodup_inOrder hc
  have houter := mapM_eq_ok_map fun container (_ : container ∈ d.containers) => hinner container
  unfold route
  rw [hc.unknownApprover?_eq_none]
  show (_ >>= _) = _
  rw [bind_eq_ok_iff]
  refine ⟨_, houter, ?_⟩
  rw [pure_eq_ok_iff, ← List.flatMap_def, Table.ofList_eq_self hkeys]

/-- Routing lists the nodes in order, each with the sentries that it gets in its container. -/
theorem forall₂_routed {P : Node α → List (Sentry α) → Prop}
    (h : ∀ container ∈ d.containers, ∀ n place, (n, place) ∈ container.members.zipIdx →
      P n (sentriesAt logic d container place n)) :
    List.Forall₂ (fun n entry => entry.1 = n.slug ∧ P n entry.2) d.inOrder
      (d.containers.flatMap (routedIn logic d)) := by
  rw [← d.flatMap_members_containers, List.flatMap_def, List.flatMap_def]
  refine List.rel_flatten (List.forall₂_map_left_iff.2 (List.forall₂_map_right_iff.2
    (List.forall₂_same.2 fun container hmem => ?_)))
  rw [routedIn, List.forall₂_map_right_iff]
  nth_rewrite 1 [← List.zipIdx_map_fst 0 container.members]
  rw [List.forall₂_map_left_iff, List.forall₂_same]
  rintro ⟨n, place⟩ hn
  exact ⟨rfl, h container hmem n place hn⟩

theorem sentriesAt_guarded (hd : d.Depicts logic) (hc : logic.Consistent)
    {container : Container α} (hmem : container ∈ d.containers) {n : Node α} {place : Nat}
    (hn : (n, place) ∈ container.members.zipIdx) :
    n.GuardedBy logic d (sentriesAt logic d container place n) :=
  nodeSentries_guarded (map_slug_sourceNodes hd hc n)
    (hd.container_slug hmem (List.fst_mem_of_mem_zipIdx hn)) (waitsFor_eq_true_iff hd hc hmem hn)

/-- Routing lists the nodes in order, and the sentries of each say when it may start. -/
theorem route_represents (hd : d.Depicts logic) (hc : logic.Consistent) :
    ∃ routed, route logic d = .ok routed ∧
      List.Forall₂ (fun n entry => entry.1 = n.slug ∧ n.GuardedBy logic d entry.2)
        d.inOrder routed :=
  ⟨_, route_eq_ok hd hc, forall₂_routed fun _ hmem _ _ hn => sentriesAt_guarded hd hc hmem hn⟩

/-- The layout of an accepted description is routed, with an entry for every node in order, and the
sentries of each say when it may start. -/
theorem route_layOut {raw : Json} {logic : Logic} (h : Logic.parse raw = .ok logic)
    (mode : LayoutMode) :
    ∃ d routed, layOut mode logic = .ok d ∧ route logic d = .ok routed ∧
      List.Forall₂ (fun n entry => entry.1 = n.slug ∧ n.GuardedBy logic d entry.2)
        d.inOrder routed := by
  have hc := consistent_of_parse h
  obtain ⟨routed, hrouted, hall⟩ := route_represents (Layout.depicts_diagram mode logic) hc
  exact ⟨_, routed, Layout.layOut_eq_ok hc mode, hrouted, hall⟩

theorem route_layOut_sample :
    Logic.parse Logic.sampleValue = .ok Logic.sample ∧
      ∃ d routed, layOut .grid Logic.sample = .ok d ∧ route Logic.sample d = .ok routed ∧
        List.Forall₂ (fun n entry => entry.1 = n.slug ∧ n.GuardedBy Logic.sample d entry.2)
          d.inOrder routed :=
  ⟨Logic.parse_sampleValue, route_layOut Logic.parse_sampleValue .grid⟩

end CasePlan
