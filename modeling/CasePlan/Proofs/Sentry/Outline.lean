import CasePlan.Proofs.Diagram.Outline
import CasePlan.Proofs.Sentry.Representation

/-!
# Routing does not look at measures

The outline of a sentry leaves its owner, its number, its kind, its condition, and its edges with
their ends, their events and the numbers of their points.  Where boxes lie decides on which side of
an item a sentry is drawn and how its lines run, and nothing else.

* `startSentry_outline`, `singleSentry_outline`, `sharedSentry_outline`, `loopSentry_outline`:
  outlines of what is made for a node depend on outlines only; `sentriesAt_outline`.
* `route_outline`: so does what routing gives; `route_outline_eq` compares two diagrams of one
  description.
-/

namespace CasePlan

variable {α β : Type}

/-- An edge without measures; its line keeps the number of its points. -/
def Edge.outline (e : Edge α) : Edge Unit :=
  ⟨e.source, e.target, e.event, e.waypoints.map Point.outline, e.sourceDocker.outline,
    e.targetDocker.outline⟩

/-- A sentry without measures, and without the side that it is drawn on. -/
def Sentry.outline (s : Sentry α) : Sentry Unit :=
  ⟨s.owner, s.index, s.kind, .corner, s.box.outline, s.condition, s.edges.map Edge.outline⟩

/-- Sentries under the slugs of their nodes, without measures. -/
def outlineEntry (entry : Text × List (Sentry α)) : Text × List (Sentry Unit) :=
  (entry.1, entry.2.map Sentry.outline)

namespace Routing

variable [Coordinate α]

/-! ## The sentries that are made -/

theorem startSentry_outline (node : Node α) (container : Text) (origin : Point α) (index : Nat) :
    (startSentry node container origin index).outline =
      (startSentry node.outline container origin.outline index).outline := by
  simp only [startSentry, Sentry.outline, Node.slug_outline]
  rfl

theorem singleSentry_outline (node source : Node α) (counts counts' : SideCounts) (index : Nat)
    (condition : Text) :
    (singleSentry node source counts index condition).1.outline =
      (singleSentry node.outline source.outline counts' index condition).1.outline := by
  unfold singleSentry
  cases (Quadrant.of source.box node.box).isTop <;>
    cases (Quadrant.of source.outline.box node.outline.box).isTop <;>
    simp only [edge, Sentry.outline, Node.slug_outline] <;> rfl

theorem sharedSentry_outline (node : Node α) (sources : List (Node α)) (counts counts' : SideCounts)
    (index : Nat) (condition : Text) :
    (sharedSentry node sources counts index condition).1.outline =
      (sharedSentry node.outline (sources.map Node.outline) counts' index condition).1.outline := by
  unfold sharedSentry
  cases (Quadrant.vote (sources.map fun s => Quadrant.of s.box node.box)).isLeft <;>
    cases (Quadrant.vote ((sources.map Node.outline).map fun s =>
      Quadrant.of s.box node.outline.box)).isLeft <;>
    simp only [edge, Sentry.outline, Node.slug_outline, List.map_map, Function.comp_def] <;> rfl

theorem loopSentry_outline (node : Node α) (counts counts' : SideCounts) (index : Nat)
    (condition : Text) :
    (loopSentry node counts index condition).outline =
      (loopSentry node.outline counts' index condition).outline := by
  simp only [loopSentry, edge, Sentry.outline, Node.slug_outline]
  rfl

/-- The sentries of a node do not depend on measures, except for where they are drawn. -/
theorem nodeSentries_outline (node : Node α) (waits : Bool) (container : Container α)
    (external loops : List Transition) (sources : List (Node α)) :
    (nodeSentries node waits container external loops sources).map Sentry.outline =
      (nodeSentries node.outline waits container.outline external loops
        (sources.map Node.outline)).map Sentry.outline := by
  have hfirst : (if waits || external.isEmpty then
      [startSentry node container.slug container.origin 0] else []).map Sentry.outline =
      (if waits || external.isEmpty then
        [startSentry node.outline container.outline.slug container.outline.origin 0] else
          []).map Sentry.outline := by
    split
    · exact congrArg (· :: []) (startSentry_outline ..)
    · rfl
  -- the number of a later sentry is the number of those before it
  have hlength := congrArg List.length hfirst
  rw [List.length_map, List.length_map] at hlength
  have hlast : ∀ (counts counts' : SideCounts) (index : Nat),
      (if loops.isEmpty then [] else
        [loopSentry node counts index (joinedCondition loops)]).map Sentry.outline =
      (if loops.isEmpty then [] else
        [loopSentry node.outline counts' index (joinedCondition loops)]).map Sentry.outline := by
    intro counts counts' index
    split
    · rfl
    · exact congrArg (· :: []) (loopSentry_outline ..)
  unfold nodeSentries
  match sources with
  | [] =>
    simp only [List.map_append, hfirst, hlength]
    exact congrArg _ (hlast ..)
  | [source] =>
    simp only [List.map_append, hfirst, hlength]
    exact congrArg₂ _ (congrArg _ (congrArg (· :: []) (singleSentry_outline ..))) (hlast ..)
  | source :: other :: rest =>
    simp only [List.map_append, hfirst, hlength]
    exact congrArg₂ _ (congrArg _ (congrArg (· :: [])
      (sharedSentry_outline node (source :: other :: rest) ..))) (hlast ..)

/-! ## Which sentries are made -/

omit [Coordinate α] in
theorem containerOf?_outline (containers : List (Container α)) (slug : Text) :
    containerOf? (containers.map Container.outline) slug = containerOf? containers slug := by
  have hmember : (fun c : Container Unit => c.members.any (·.slug = slug)) ∘ Container.outline =
      fun c : Container α => c.members.any (·.slug = slug) := by
    funext c
    simp [Container.outline, Function.comp_def]
  unfold containerOf?
  rw [← List.map_reverse, List.find?_map, hmember, Option.map_map]
  rfl

omit [Coordinate α] in
theorem isEntered_outline (logic : Logic) (containers : List (Container α)) (container : Text)
    (node : Node α) (incoming : List Transition) :
    isEntered logic (containers.map Container.outline) container node.outline incoming =
      isEntered logic containers container node incoming := by
  unfold isEntered
  simp only [containerOf?_outline, Node.slug_outline]

theorem waitsFor_outline (logic : Logic) (d : Diagram α) (container : Container α) (place : Nat)
    (n : Node α) :
    waitsFor logic d.outline container.outline place n.outline =
      waitsFor logic d container place n := by
  unfold waitsFor
  rw [d.containers_outline, isEntered_outline, Node.slug_outline]
  rfl

omit [Coordinate α] in
theorem sourceNodes_outline (logic : Logic) (d : Diagram α) (n : Node α) :
    sourceNodes logic d.outline n.outline = (sourceNodes logic d n).map Node.outline := by
  unfold sourceNodes
  rw [Node.slug_outline, List.map_filterMap]
  exact List.filterMap_congr fun slug _ => d.find?_outline slug

theorem sentriesAt_outline (logic : Logic) (d : Diagram α) (container : Container α) (place : Nat)
    (n : Node α) :
    (sentriesAt logic d container place n).map Sentry.outline =
      (sentriesAt logic d.outline container.outline place n.outline).map Sentry.outline := by
  unfold sentriesAt
  rw [nodeSentries_outline, waitsFor_outline, sourceNodes_outline, Node.slug_outline]

/-- What is listed for a container does not depend on measures. -/
theorem routedIn_outline (logic : Logic) (d : Diagram α) (container : Container α) :
    (routedIn logic d container).map outlineEntry =
      (routedIn logic d.outline container.outline).map outlineEntry := by
  have hplaces : container.outline.members.zipIdx =
      container.members.zipIdx.map (Prod.map Node.outline id) :=
    (List.zipIdx_map ..)
  unfold routedIn
  rw [hplaces, List.map_map, List.map_map, List.map_map]
  refine List.map_congr_left fun x _ => ?_
  simp only [Function.comp_apply, outlineEntry, Prod.map, id, Node.slug_outline]
  rw [sentriesAt_outline]

end Routing

open Routing

variable [Coordinate α] [Coordinate β] {logic : Logic}

/-- Routing a diagram gives what its outline gives, apart from measures. -/
theorem route_outline {d : Diagram α} (hd : d.Depicts logic) (hc : logic.Consistent) :
    ∃ routed, route logic d = .ok routed ∧
      routed.map outlineEntry =
        (d.outline.containers.flatMap (routedIn logic d.outline)).map outlineEntry := by
  refine ⟨_, route_eq_ok hd hc, ?_⟩
  rw [d.containers_outline, List.flatMap_map, List.map_flatMap, List.map_flatMap]
  exact List.flatMap_congr fun container _ => routedIn_outline logic d container

/-- Routing two diagrams of one description gives the same sentries, apart from measures. -/
theorem route_outline_eq {d : Diagram α} {d' : Diagram β} (hd : d.Depicts logic)
    (hd' : d'.Depicts logic) (hc : logic.Consistent) :
    ∃ routed routed', route logic d = .ok routed ∧ route logic d' = .ok routed' ∧
      routed.map outlineEntry = routed'.map outlineEntry := by
  obtain ⟨routed, hrouted, h⟩ := route_outline hd hc
  obtain ⟨routed', hrouted', h'⟩ := route_outline hd' hc
  exact ⟨routed, routed', hrouted, hrouted', by rw [h, h', hd.outline_eq hd']⟩

end CasePlan
