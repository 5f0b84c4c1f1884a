import CasePlan.Proofs.Diagram.Tree

/-!
# Outlines of diagrams

The outline of a diagram is the diagram without its measures: what stands where in the tree of
nodes, under which slug and name, but no positions and no sizes.  It is a diagram whose coordinates
say nothing.

* `find?_outline`, `containers_outline`: looking up nodes and listing containers goes by outlines.
* `Diagram.Depicts.outline_eq`: diagrams that depict one description have one outline.
-/

namespace CasePlan

/-- Coordinates that say nothing. -/
instance : Coordinate Unit where
  add _ _ := ()
  sub _ _ := ()
  ofNat _ := ()
  times _ _ := ()
  part _ _ := ()
  less _ _ := false
  atMost _ _ := false
  written _ := []

variable {α β : Type}

/-- A point that lies nowhere. -/
def Point.outline (_ : Point α) : Point Unit := ⟨(), ()⟩

/-- A box of no size. -/
def Box.outline (_ : Box α) : Box Unit := ⟨(), (), (), ()⟩

namespace Node

mutual

/-- A node without measures. -/
def outline : Node α → Node Unit
  | ⟨slug, name, kind, parent, box, children⟩ =>
    ⟨slug, name, kind, parent, box.outline, outlineAll children⟩

/-- Some nodes without measures. -/
def outlineAll : List (Node α) → List (Node Unit)
  | [] => []
  | n :: rest => outline n :: outlineAll rest

end

theorem outlineAll_eq_map (ns : List (Node α)) : outlineAll ns = ns.map outline := by
  induction ns with
  | nil => rfl
  | cons n ns ih => rw [outlineAll, ih, List.map_cons]

@[simp] theorem slug_outline (n : Node α) : n.outline.slug = n.slug := by
  cases n
  rfl

@[simp] theorem name_outline (n : Node α) : n.outline.name = n.name := by
  cases n
  rfl

@[simp] theorem kind_outline (n : Node α) : n.outline.kind = n.kind := by
  cases n
  rfl

@[simp] theorem parent_outline (n : Node α) : n.outline.parent = n.parent := by
  cases n
  rfl

@[simp] theorem children_outline (n : Node α) : n.outline.children = n.children.map outline := by
  cases n
  rw [outline, outlineAll_eq_map]

/-- Nodes that agree in all but their boxes have one outline. -/
theorem outline_eq_outline {n : Node α} {m : Node β} (hslug : n.slug = m.slug)
    (hname : n.name = m.name) (hkind : n.kind = m.kind) (hparent : n.parent = m.parent)
    (hchildren : n.children.map outline = m.children.map outline) : n.outline = m.outline := by
  cases n
  cases m
  simp only [outline, outlineAll_eq_map, mk.injEq]
  exact ⟨hslug, hname, hkind, hparent, rfl, hchildren⟩

end Node

/-! ## Diagrams -/

/-- A container without measures. -/
def Container.outline (c : Container α) : Container Unit :=
  ⟨c.slug, c.origin.outline, c.members.map Node.outline⟩

namespace Diagram

/-- A diagram without measures. -/
def outline (d : Diagram α) : Diagram Unit := ⟨d.nodes.map Node.outline, (), ()⟩

theorem entries_outline (d : Diagram α) : d.outline.entries = d.entries.map Node.outline := by
  unfold entries outline
  rw [List.flatMap_map, List.map_flatMap]
  refine List.flatMap_congr fun n _ => ?_
  rw [Node.children_outline, List.map_cons]

/-- Nodes are found by their slugs alone. -/
theorem find?_outline (d : Diagram α) (slug : Text) :
    d.outline.find? slug = (d.find? slug).map Node.outline := by
  have hslug : (fun n : Node Unit => decide (n.slug = slug)) ∘ Node.outline =
      fun n : Node α => decide (n.slug = slug) := by
    funext n
    rw [Function.comp_apply, Node.slug_outline]
  unfold find?
  rw [entries_outline, ← List.map_reverse, List.find?_map, hslug]

/-- Which nodes share a container does not depend on measures. -/
theorem containers_outline [Coordinate α] (d : Diagram α) :
    d.outline.containers = d.containers.map Container.outline := by
  have hempty : (fun n : Node Unit => !n.children.isEmpty) ∘ Node.outline =
      fun n : Node α => !n.children.isEmpty := by
    funext n
    rw [Function.comp_apply, Node.children_outline, List.isEmpty_map]
  unfold containers outline
  rw [List.map_cons, List.filter_map, hempty, List.map_map, List.map_map]
  refine congrArg _ (List.map_congr_left fun n _ => ?_)
  simp only [Function.comp_apply, Container.outline, Node.slug_outline, Node.children_outline]
  rfl

end Diagram

/-! ## One description, one outline -/

open Layout

variable {logic : Logic}

/-- Nodes that stand for one task of a stage have one outline. -/
theorem Node.ShowsMember.outline_eq {stage member : Text} {n : Node α} {m : Node β}
    (hn : n.ShowsMember logic stage member) (hm : m.ShowsMember logic stage member) :
    n.outline = m.outline :=
  outline_eq_outline (hn.slug.trans hm.slug.symm) (hn.name.trans hm.name.symm)
    (hn.kind.trans hm.kind.symm) (hn.parent.trans hm.parent.symm)
    (by rw [hn.children, hm.children]; rfl)

/-- Lists of nodes that stand for one list of things have one list of outlines. -/
theorem map_outline_eq {γ : Type} {R : γ → Node α → Prop} {S : γ → Node β → Prop} {xs : List γ}
    {ns : List (Node α)} {ms : List (Node β)} (hns : List.Forall₂ R xs ns)
    (hms : List.Forall₂ S xs ms) (h : ∀ x n m, R x n → S x m → n.outline = m.outline) :
    ns.map Node.outline = ms.map Node.outline := by
  induction hns generalizing ms with
  | nil =>
    cases hms
    rfl
  | cons hn _ ih =>
    cases hms with
    | cons hm hms => rw [List.map_cons, List.map_cons, h _ _ _ hn hm, ih hms]

/-- Nodes that stand for one item have one outline. -/
theorem Node.Shows.outline_eq {item : Item} {n : Node α} {m : Node β} (hn : n.Shows logic item)
    (hm : m.Shows logic item) : n.outline = m.outline :=
  outline_eq_outline (hn.slug.trans hm.slug.symm) (hn.name.trans hm.name.symm)
    (hn.kind.trans hm.kind.symm) (hn.parent.trans hm.parent.symm)
    (map_outline_eq hn.children hm.children fun _ _ _ h h' => h.outline_eq h')

/-- Diagrams of one description differ in measures only. -/
theorem Diagram.Depicts.outline_eq {d : Diagram α} {d' : Diagram β} (hd : d.Depicts logic)
    (hd' : d'.Depicts logic) : d.outline = d'.outline := by
  unfold Diagram.outline
  rw [map_outline_eq hd hd' fun _ _ _ h h' => h.outline_eq h']

end CasePlan
