import CasePlan.Proofs.Diagram.Separation

/-!
# Free space in diagrams

How far any two nodes of a layout keep apart, and how far they keep from the border of the main
stage, so that there is room for what is drawn on and around them.

* `Box.Covers`, `Box.OnBorder`: points of a box with its border, and points of the border.
* `Box.corners`, `corners_of_layOut`: every node of a layout has four corners, at the ends of its
  width and height.
* `Box.Clear.of_grow`, `Box.Staggered.of_grow`: what stays near two boxes keeps what is left of the
  gap between them.
* `Diagram.Roomy`: of two nodes one is deep inside the other or there is a gap between them.
  `roomy_diagram`: layouts are so.
* `Diagram.Banded`: two nodes of which none is in the other share no column and no row.
  `banded_diagram`: alternating layouts are so.
-/

namespace CasePlan

/-! ## Points of boxes -/

namespace Box

/-- A point lies in a box or on its border. -/
structure Covers (b : Box Rat) (p : Point Rat) : Prop where
  /-- It does not lie to the left of the left edge. -/
  left : b.x ≤ p.x
  /-- It does not lie to the right of the right edge. -/
  right : p.x ≤ b.x + b.width
  /-- It does not lie above the top edge. -/
  top : b.y ≤ p.y
  /-- It does not lie below the bottom edge. -/
  bottom : p.y ≤ b.y + b.height

/-- A point lies on the border of a box. -/
def OnBorder (b : Box Rat) (p : Point Rat) : Prop := b.Covers p ∧ ¬b.Encloses p

variable {a b c d : Box Rat} {p : Point Rat} {gap : Rat}

theorem Within.refl (a : Box Rat) : a.Within a := ⟨le_rfl, le_rfl, le_rfl, le_rfl⟩

theorem Within.trans (hab : a.Within b) (hbc : b.Within c) : a.Within c :=
  ⟨hbc.left.trans hab.left, hbc.top.trans hab.top, hab.right.trans hbc.right,
    hab.bottom.trans hbc.bottom⟩

theorem Within.covers (h : a.Within b) (hp : a.Covers p) : b.Covers p :=
  ⟨h.left.trans hp.left, hp.right.trans h.right, h.top.trans hp.top, hp.bottom.trans h.bottom⟩

/-- The corners of a box, from left to right and from top to bottom. -/
def corners (b : Box Rat) : List (Point Rat) := [b.topLeft, b.topRight, b.bottomLeft, b.bottomRight]

/-- The corners are where an end of the width meets an end of the height. -/
theorem mem_corners_iff : p ∈ b.corners ↔
    (p.x = b.x ∨ p.x = b.x + b.width) ∧ (p.y = b.y ∨ p.y = b.y + b.height) := by
  obtain ⟨x, y⟩ := p
  simp only [corners, List.mem_cons, List.not_mem_nil, or_false, topLeft, topRight, bottomLeft,
    bottomRight, right, bottom, Point.mk.injEq]
  tauto

/-- A box with a width and a height has four of them. -/
theorem nodup_corners (hwidth : 0 < b.width) (hheight : 0 < b.height) : b.corners.Nodup := by
  have hx : b.x ≠ b.x + b.width := by linarith
  have hy : b.y ≠ b.y + b.height := by linarith
  simp [corners, topLeft, topRight, bottomLeft, bottomRight, right, bottom, hx, hy]

/-- A wider border around the same box reaches further. -/
theorem grow_within_grow {u v : Rat} (h : u ≤ v) : (a.grow u).Within (a.grow v) := by
  constructor <;> simp only [grow] <;> linarith

theorem within_grow (h : 0 ≤ gap) : a.Within (a.grow gap) := by
  constructor <;> simp only [grow] <;> linarith

/-- A border on both sides of an inclusion. -/
theorem Within.grow (h : a.Within b) (border : Rat) : (a.grow border).Within (b.grow border) := by
  obtain ⟨hl, ht, hr, hb⟩ := h
  constructor <;> simp only [Box.grow] <;> linarith

/-- No point of a box lies inside another that it is clear of. -/
theorem Clear.not_encloses (h : a.Clear b gap) (hgap : 0 ≤ gap) (hp : a.Covers p) :
    ¬b.Encloses p := by
  obtain ⟨h1, h2, h3, h4⟩ := hp
  rintro ⟨h5, h6, h7, h8⟩
  rcases h with (h | h) | (h | h) <;> linarith

/-- A border uses up its part of a gap between columns. -/
theorem Beside.of_grow {u v : Rat} (h : b.Beside d gap) (ha : a.Within (b.grow u))
    (hc : c.Within (d.grow v)) : a.Beside c (gap - u - v) := by
  have h1 := ha.left
  have h2 := ha.right
  have h3 := hc.left
  have h4 := hc.right
  simp only [Box.grow] at h1 h2 h3 h4
  rcases h with h | h
  · exact .inl (by linarith)
  · exact .inr (by linarith)

/-- A border uses up its part of a gap between rows. -/
theorem Stacked.of_grow {u v : Rat} (h : b.Stacked d gap) (ha : a.Within (b.grow u))
    (hc : c.Within (d.grow v)) : a.Stacked c (gap - u - v) := by
  have h1 := ha.top
  have h2 := ha.bottom
  have h3 := hc.top
  have h4 := hc.bottom
  simp only [Box.grow] at h1 h2 h3 h4
  rcases h with h | h
  · exact .inl (by linarith)
  · exact .inr (by linarith)

theorem Clear.of_grow {u v : Rat} (h : b.Clear d gap) (ha : a.Within (b.grow u))
    (hc : c.Within (d.grow v)) : a.Clear c (gap - u - v) :=
  h.imp (·.of_grow ha hc) (·.of_grow ha hc)

theorem Staggered.of_grow {u v : Rat} (h : b.Staggered d gap) (ha : a.Within (b.grow u))
    (hc : c.Within (d.grow v)) : a.Staggered c (gap - u - v) :=
  ⟨h.1.of_grow ha hc, h.2.of_grow ha hc⟩

theorem Clear.mono {gap' : Rat} (h : a.Clear b gap) (hle : gap' ≤ gap) : a.Clear b gap' := by
  rcases h with (h | h) | (h | h)
  · exact .inl (.inl (by linarith))
  · exact .inl (.inr (by linarith))
  · exact .inr (.inl (by linarith))
  · exact .inr (.inr (by linarith))

theorem Within.grow_zero (h : a.Within b) : a.Within (b.grow 0) := h.trans (within_grow le_rfl)

theorem Clear.of_within (h : b.Clear d gap) (ha : a.Within b) (hc : c.Within d) :
    a.Clear c gap := by
  simpa using h.of_grow ha.grow_zero hc.grow_zero

theorem Staggered.of_within (h : b.Staggered d gap) (ha : a.Within b) (hc : c.Within d) :
    a.Staggered c gap := by
  simpa using h.of_grow ha.grow_zero hc.grow_zero

end Box

/-! ## Nodes -/

/-- A node is in another, and keeps a margin to its border. -/
structure Node.Holds (m n : Node Rat) : Prop where
  /-- It is one of its children. -/
  child : n ∈ m.children
  /-- It keeps a margin to the border. -/
  inside : (n.box.grow 50).Within m.box

namespace Diagram

/-- There is room around the nodes of a diagram. -/
structure Roomy (d : Diagram Rat) : Prop where
  /-- Of two nodes one is in the other or there is a gap between them. -/
  gap : d.inOrder.Pairwise fun m n => m.box.Clear n.box 50 ∨ m.Holds n
  /-- All keep a distance to the border of the main stage. -/
  main : ∀ n ∈ d.inOrder, (n.box.grow 30).Within d.mainBox
  /-- None is smaller than a task. -/
  size : ∀ n ∈ d.inOrder, 120 ≤ n.box.width ∧ 80 ≤ n.box.height

/-- Two nodes share no column and no row, unless one is in the other. -/
def Banded (d : Diagram Rat) : Prop :=
  d.inOrder.Pairwise fun m n => m.box.Staggered n.box 50 ∨ m.Holds n

/-- What holds of two nodes in one order or the other holds of any two. -/
theorem forall_of_pairwise {d : Diagram Rat} {R : Node Rat → Node Rat → Prop}
    (h : d.inOrder.Pairwise R) {m n : Node Rat} (hm : m ∈ d.inOrder) (hn : n ∈ d.inOrder)
    (hne : m ≠ n) : R m n ∨ R n m := by
  have hsymm : d.inOrder.Pairwise fun m n => R m n ∨ R n m := h.imp .inl
  have : Std.Symm fun m n => R m n ∨ R n m := ⟨fun _ _ => Or.symm⟩
  exact hsymm.forall hm hn hne

end Diagram

/-! ## Layouts -/

namespace Layout

open Diagram

variable {mode : LayoutMode} {logic : Logic}

/-- What keeps two nodes at the top apart, and two tasks of a stage, and passes on to what is inside
them, keeps any two nodes apart unless one is in the other. -/
theorem pairwise_inOrder {R : Box Rat → Box Rat → Prop} (hsymm : ∀ {a b}, R a b → R b a)
    (hwithin : ∀ {a b c d : Box Rat}, R b d → a.Within b → c.Within d → R a c)
    (hnodes : (diagram mode logic).nodes.Pairwise fun m n => R m.box n.box)
    (hchildren : ∀ n ∈ (diagram mode logic).nodes, n.children.Pairwise fun m n => R m.box n.box) :
    (diagram mode logic).inOrder.Pairwise fun m n => R m.box n.box ∨ m.Holds n := by
  have hsymm' : Std.Symm fun m n : Node Rat => R m.box n.box := ⟨fun _ _ => hsymm⟩
  refine List.pairwise_append.2 ⟨hnodes.imp .inl, List.pairwise_flatMap.2 ⟨?_, ?_⟩, ?_⟩
  · exact fun n hn => (hchildren n hn).imp .inl
  · refine hnodes.imp_of_mem fun {m n} hm hn h s hs t ht => ?_
    exact .inl (hwithin h (children_within hm hs) (children_within hn ht))
  · intro m hm c hc
    obtain ⟨n, hn, hc⟩ := List.mem_flatMap.1 hc
    by_cases hmn : m = n
    · subst hmn
      exact .inr ⟨hc, grow_within_stage hm hc⟩
    · exact .inl (hwithin (hnodes.forall hm hn hmn) (.refl _) (children_within hn hc))

/-- Nodes of an alternating layout share no column and no row. -/
theorem banded_diagram (logic : Logic) : (diagram .alternating logic).Banded :=
  pairwise_inOrder Box.Staggered.symm Box.Staggered.of_within (nodes_staggered logic)
    fun _ hn => children_staggered hn

theorem size_mem_of_mem_boxes {corners : List (Point Rat)} {sizes : List (Rat × Rat)} {b : Box Rat}
    (h : b ∈ boxes corners sizes) : (b.width, b.height) ∈ sizes := by
  obtain ⟨i, hi, rfl⟩ := List.getElem_of_mem h
  have hlen : i < sizes.length := by
    rw [boxes, List.length_zipWith] at hi
    omega
  simp only [boxes, List.getElem_zipWith]
  exact List.getElem_mem hlen

/-- An item is at least as large as a task. -/
theorem size_item (hc : logic.Consistent) {item : Item} (h : item ∈ items logic) :
    120 ≤ item.width ∧ 80 ≤ item.height := by
  rw [Item.width_eq, Item.height_eq]
  cases item with
  | task t => norm_num
  | stage s =>
    have hne := (hc.stage s ((mem_items_stage hc).1 h)).members_ne_nil
    have hlen : (1 : Rat) ≤ s.members.length := by
      exact_mod_cast List.length_pos_iff.2 hne
    constructor <;> simp only <;> linarith

/-- No node is smaller than a task. -/
theorem size_node (hc : logic.Consistent) {n : Node Rat} (hn : n ∈ (diagram mode logic).inOrder) :
    120 ≤ n.box.width ∧ 80 ≤ n.box.height := by
  rcases Diagram.mem_inOrder.1 hn with hn | ⟨m, hm, hn⟩
  · rw [diagram_nodes, List.mem_map] at hn
    obtain ⟨⟨item, corner⟩, hmem, rfl⟩ := hn
    rw [box_node]
    exact size_item hc (List.of_mem_zip hmem).1
  · rcases boxes_children hm with h | ⟨slugs, h, -, -⟩
    · rw [h] at hn
      exact absurd hn List.not_mem_nil
    · have hmem := List.mem_map_of_mem (f := (·.box)) hn
      rw [h] at hmem
      obtain ⟨-, -, hsize⟩ := List.mem_map.1 (size_mem_of_mem_boxes hmem)
      obtain ⟨hw, hh⟩ := Prod.mk.inj hsize
      rw [← hw, ← hh]
      norm_num [taskWidth, taskHeight]

/-- Every node of a layout has its four corners. -/
theorem corners_of_layOut (hc : logic.Consistent) {d : Diagram Rat} (hd : layOut mode logic = .ok d) :
    ∀ n ∈ d.inOrder, n.box.corners.Nodup ∧ ∀ p, p ∈ n.box.corners ↔
      (p.x = n.box.x ∨ p.x = n.box.x + n.box.width) ∧
        (p.y = n.box.y ∨ p.y = n.box.y + n.box.height) := by
  rw [layOut_eq_ok hc] at hd
  obtain rfl := Except.ok.inj hd
  intro n hn
  obtain ⟨hwidth, hheight⟩ := size_node hc hn
  exact ⟨Box.nodup_corners (by linarith) (by linarith), fun _ => Box.mem_corners_iff⟩

/-- There is room around the nodes of every layout. -/
theorem roomy_diagram (hc : logic.Consistent) (mode : LayoutMode) : (diagram mode logic).Roomy where
  gap := pairwise_inOrder Box.Clear.symm Box.Clear.of_within (nodes_clear mode logic)
    fun _ hn => (children_staggered hn).imp Box.Staggered.clear
  main := by
    intro n hn
    rcases Diagram.mem_inOrder.1 hn with hn | ⟨m, hm, hn⟩
    · exact grow_within_main hn
    · exact ((children_within hm hn).grow 30).trans (grow_within_main hm)
  size _ hn := size_node hc hn

end Layout

end CasePlan
