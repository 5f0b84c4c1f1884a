import CasePlan.Proofs.Diagram.Placement
import CasePlan.Proofs.Diagram.Tree

/-!
# Nothing in a diagram overlaps

In both layouts no two boxes at the top intersect, no two tasks of a stage intersect, every task of
a stage lies in its box, and everything lies in the main stage, which lies in the plan model.

* `boxes_nodes`, `boxes_children`: the nodes of a layout have the boxes that are placed for them.
* `span_widths_le`, `span_heights_le`: an item leaves room for its margins within its share of the
  main stage; this relates the sums that boxes are placed by to the size of the main stage.
* `nodes_clear`, `children_staggered`, `grow_within_stage`, `grow_within_main`: how much free space
  there is between nodes, and between them and what is around them.
* `Diagram.Separated`, `separated_diagram`, `layOut_separated`: the statement about whole diagrams.
-/

namespace CasePlan

namespace Diagram

/-- The nodes of all tasks: those at the top in order, each stage replaced by its tasks. -/
def taskNodes {α : Type} (d : Diagram α) : List (Node α) :=
  d.nodes.flatMap fun n =>
    match n.kind with
    | .task => [n]
    | .stage => n.children

/-- The box of the main stage. -/
def mainBox (d : Diagram Rat) : Box Rat := ⟨40, 50, d.width, d.height⟩

/-- The box of the plan model. -/
def modelBox (d : Diagram Rat) : Box Rat := ⟨20, 30, d.width + 50, d.height + 50⟩

/-- No boxes overlap, and every box lies in the one around it. -/
structure Separated (d : Diagram Rat) : Prop where
  /-- No two nodes at the top intersect. -/
  nodes : d.nodes.Pairwise fun m n => m.box.intersects n.box = false
  /-- No two tasks of a stage intersect. -/
  children : ∀ n ∈ d.nodes, n.children.Pairwise fun m n => m.box.intersects n.box = false
  /-- Tasks lie in the boxes of their stages. -/
  inside : ∀ n ∈ d.nodes, ∀ c ∈ n.children, c.box.Within n.box
  /-- No point lies inside two tasks. -/
  tasks : d.taskNodes.Pairwise fun m n => m.box.Apart n.box
  /-- Nodes at the top lie in the main stage. -/
  main : ∀ n ∈ d.nodes, n.box.Within d.mainBox
  /-- The main stage lies in the plan model. -/
  model : d.mainBox.Within d.modelBox

end Diagram

namespace Layout

/-! ## The boxes of nodes -/

/-- Width and height of an item. -/
def Item.size (item : Item) : Rat × Rat := (item.width, item.height)

theorem Item.width_eq (item : Item) :
    item.width = match item with
      | .task _ => 120
      | .stage s => (s.members.length : Rat) * 120 + ((s.members.length : Rat) + 1) * 50 := by
  cases item with
  | task t => rfl
  | stage s =>
    show ((stageFootprint s.members.length).1 : Rat) = _
    simp [stageFootprint, taskWidth, margin]

theorem Item.height_eq (item : Item) :
    item.height = match item with
      | .task _ => 80
      | .stage s => (s.members.length : Rat) * 80 + ((s.members.length : Rat) + 1) * 50 := by
  cases item with
  | task t => rfl
  | stage s =>
    show ((stageFootprint s.members.length).2 : Rat) = _
    simp [stageFootprint, taskHeight, margin]

theorem Item.size_nonneg (item : Item) : 0 ≤ item.width ∧ 0 ≤ item.height := by
  rw [Item.width_eq, Item.height_eq]
  cases item with
  | task t => norm_num
  | stage s =>
    have h : (0 : Rat) ≤ s.members.length := Nat.cast_nonneg _
    constructor <;> show (0 : Rat) ≤ _ <;> linarith

theorem sized_items (items : List Item) : Sized (items.map Item.size) := by
  intro s hs
  obtain ⟨item, -, rfl⟩ := List.mem_map.1 hs
  exact item.size_nonneg

theorem box_node (logic : Logic) (item : Item) (corner : Point Rat) :
    (item.node logic corner).box = ⟨corner.x, corner.y, item.width, item.height⟩ := by
  cases item <;> rfl

/-- The nodes at the top have the boxes that are placed for the items. -/
theorem boxes_nodes (mode : LayoutMode) (logic : Logic) :
    (diagram mode logic).nodes.map (·.box) =
      boxes (corners mode (items logic)) ((items logic).map Item.size) := by
  rw [diagram_nodes]
  generalize corners mode (items logic) = corners
  generalize items logic = is
  induction is generalizing corners with
  | nil => simp [boxes]
  | cons item is ih =>
    cases corners with
    | nil => simp [boxes]
    | cons c corners =>
      rw [List.zip_cons_cons, List.map_cons, List.map_cons, ih, box_node]
      rfl

/-- The sizes of some tasks. -/
def taskSizes (slugs : List Text) : List (Rat × Rat) :=
  slugs.map fun _ => ((taskWidth : Rat), (taskHeight : Rat))

theorem sized_taskSizes (slugs : List Text) : Sized (taskSizes slugs) := by
  intro s hs
  obtain ⟨slug, -, rfl⟩ := List.mem_map.1 hs
  constructor <;> exact Nat.cast_nonneg _

/-- The tasks of a stage have the boxes that are placed for them alternately. -/
theorem boxes_members (logic : Logic) (s : Stage) (corner : Point Rat) :
    (members logic s corner).map (·.box) =
      boxes (alternate corner (taskSizes s.members)) (taskSizes s.members) := by
  unfold members
  show (List.map _ (s.members.zip (alternate corner (taskSizes s.members)))).map _ = _
  generalize alternate corner (taskSizes s.members) = corners
  generalize s.members = slugs
  induction slugs generalizing corners with
  | nil => simp [boxes, taskSizes]
  | cons slug slugs ih =>
    cases corners with
    | nil => simp [boxes]
    | cons c corners =>
      rw [List.zip_cons_cons, List.map_cons, List.map_cons, ih]
      rfl

/-- What is in a node at the top is placed alternately at its corner. -/
theorem boxes_children {mode : LayoutMode} {logic : Logic} {n : Node Rat}
    (hn : n ∈ (diagram mode logic).nodes) :
    n.children = [] ∨ ∃ slugs : List Text,
      n.children.map (·.box) =
        boxes (alternate n.box.topLeft (taskSizes slugs)) (taskSizes slugs) ∧
      n.box.width = (slugs.length : Rat) * 120 + ((slugs.length : Rat) + 1) * 50 ∧
      n.box.height = (slugs.length : Rat) * 80 + ((slugs.length : Rat) + 1) * 50 := by
  rw [diagram_nodes, List.mem_map] at hn
  obtain ⟨⟨item, corner⟩, -, rfl⟩ := hn
  cases item with
  | task t => exact .inl rfl
  | stage s =>
    exact .inr ⟨s.members, boxes_members logic s corner, Item.width_eq (.stage s),
      Item.height_eq (.stage s)⟩

/-! ## Sums of sizes and the size of the main stage -/

/-- The sum of equal sizes with their margins. -/
theorem span_replicate (slugs : List Text) (size : Rat) :
    span (slugs.map fun _ => size) = (slugs.length : Rat) * (size + 50) := by
  induction slugs with
  | nil => simp
  | cons slug slugs ih =>
    rw [List.map_cons, span_cons, ih, List.length_cons, margin]
    push_cast
    ring

/-- The number of tasks that items stand for, and of columns that they take. -/
def taskCount (items : List Item) : Nat := items.foldr (fun item rest => item.count + rest) 0

/-- Items and the margins after them take at most their share of the width. -/
theorem span_widths_le (items : List Item) :
    span (items.map Item.width) ≤
      (taskCount items : Rat) * 170 + (items.length : Rat) * 100 := by
  induction items with
  | nil => simp [taskCount]
  | cons item items ih =>
    have hitem : item.width ≤ (item.count : Rat) * 170 + 50 := by
      rw [Item.width_eq]
      cases item <;> simp only [Item.count] <;> push_cast <;> linarith
    rw [List.map_cons, span_cons, taskCount, List.foldr_cons, ← taskCount, List.length_cons, margin]
    push_cast
    linarith

/-- Items and the margins after them take at most their share of the height. -/
theorem span_heights_le (items : List Item) :
    span (items.map Item.height) ≤
      (taskCount items : Rat) * 130 + (items.length : Rat) * 100 := by
  induction items with
  | nil => simp [taskCount]
  | cons item items ih =>
    have hitem : item.height ≤ (item.count : Rat) * 130 + 50 := by
      rw [Item.height_eq]
      cases item <;> simp only [Item.count] <;> push_cast <;> linarith
    rw [List.map_cons, span_cons, taskCount, List.foldr_cons, ← taskCount, List.length_cons, margin]
    push_cast
    linarith

theorem alternatingSize_eq (items : List Item) :
    alternatingSize items =
      ((taskCount items : Rat) * 170 + (items.length : Rat) * 100 + 50,
        (taskCount items : Rat) * 130 + (items.length : Rat) * 100 + 50) := by
  have hcount : items.foldr (fun item rest => item.count + rest) 0 = taskCount items := rfl
  unfold alternatingSize
  simp only [hcount, taskWidth, taskHeight, margin]
  push_cast
  rw [Prod.mk.injEq]
  constructor <;> ring

/-! ## Whole diagrams -/

/-- Nodes at the top of an alternating layout have a margin between their columns and their rows. -/
theorem nodes_staggered (logic : Logic) :
    (diagram .alternating logic).nodes.Pairwise fun m n => m.box.Staggered n.box margin := by
  have h := alternate_staggers (⟨50, 30⟩ : Point Rat) (sized_items (items logic))
  exact List.pairwise_map.1 (boxes_nodes .alternating logic ▸ h)

/-- Nodes at the top have a margin between them. -/
theorem nodes_clear (mode : LayoutMode) (logic : Logic) :
    (diagram mode logic).nodes.Pairwise fun m n => m.box.Clear n.box margin := by
  cases mode with
  | alternating => exact (nodes_staggered logic).imp Box.Staggered.clear
  | grid => exact List.pairwise_map.1 (boxes_nodes .grid logic ▸ grid_clears _)

/-- Boxes at the top do not intersect. -/
theorem nodes_separated (mode : LayoutMode) (logic : Logic) :
    (diagram mode logic).nodes.Pairwise fun m n => m.box.intersects n.box = false :=
  (nodes_clear mode logic).imp fun h => h.intersects_eq_false (Nat.cast_nonneg _)

/-- Tasks of a stage have a margin between their columns and their rows. -/
theorem children_staggered {mode : LayoutMode} {logic : Logic} {n : Node Rat}
    (hn : n ∈ (diagram mode logic).nodes) :
    n.children.Pairwise fun m n => m.box.Staggered n.box margin := by
  rcases boxes_children hn with h | ⟨slugs, h, -, -⟩
  · rw [h]
    exact .nil
  · have hp := alternate_staggers n.box.topLeft (sized_taskSizes slugs)
    rw [← h] at hp
    exact List.pairwise_map.1 hp

/-- Tasks of a stage do not intersect. -/
theorem children_separated {mode : LayoutMode} {logic : Logic} {n : Node Rat}
    (hn : n ∈ (diagram mode logic).nodes) :
    n.children.Pairwise fun m n => m.box.intersects n.box = false :=
  (children_staggered hn).imp fun h => h.clear.intersects_eq_false (Nat.cast_nonneg _)

/-- Tasks keep a margin to the border of their stage. -/
theorem grow_within_stage {mode : LayoutMode} {logic : Logic} {n c : Node Rat}
    (hn : n ∈ (diagram mode logic).nodes) (hc : c ∈ n.children) :
    (c.box.grow margin).Within n.box := by
  rcases boxes_children hn with h | ⟨slugs, h, hw, hh⟩
  · rw [h] at hc
    exact absurd hc (by simp)
  · have hmem : c.box ∈ boxes (alternate n.box.topLeft (taskSizes slugs)) (taskSizes slugs) := by
      rw [← h]
      exact List.mem_map.2 ⟨c, hc, rfl⟩
    obtain ⟨hin, hx, hy⟩ := alternate_bounds (sized_taskSizes slugs) hmem
    have hwidth : span ((taskSizes slugs).map Prod.fst) = (slugs.length : Rat) * 170 := by
      rw [taskSizes, List.map_map]
      exact (span_replicate slugs 120).trans (by norm_num)
    have hheight : span ((taskSizes slugs).map Prod.snd) = (slugs.length : Rat) * 130 := by
      rw [taskSizes, List.map_map]
      exact (span_replicate slugs 80).trans (by norm_num)
    have hr := hin.right
    have hb := hin.bottom
    simp only [hwidth, hheight, Box.topLeft, margin] at hr hb hx hy
    push_cast at hx hy
    constructor <;> simp only [Box.grow, margin, hw, hh] <;> push_cast <;> linarith

/-- Tasks lie in the boxes of their stages. -/
theorem children_within {mode : LayoutMode} {logic : Logic} {n c : Node Rat}
    (hn : n ∈ (diagram mode logic).nodes) (hc : c ∈ n.children) : c.box.Within n.box :=
  (grow_within_stage hn hc).of_grow (Nat.cast_nonneg _)

/-- Nodes that are placed alternately end within the sum of their sizes and margins, which the main
stage has room for. -/
theorem grow_within_alternating {logic : Logic} {b : Box Rat}
    (hb : b ∈ boxes (corners .alternating (items logic)) ((items logic).map Item.size)) :
    (b.grow 30).Within (diagram .alternating logic).mainBox := by
  obtain ⟨hin, hx, hy⟩ := alternate_bounds (sized_items _) hb
  have hw := span_widths_le (items logic)
  have hh := span_heights_le (items logic)
  have hsize := alternatingSize_eq (items logic)
  have hr := hin.right
  have hb := hin.bottom
  have hwidths : ((items logic).map Item.size).map Prod.fst = (items logic).map Item.width :=
    List.map_map
  have hheights : ((items logic).map Item.size).map Prod.snd = (items logic).map Item.height :=
    List.map_map
  rw [hwidths] at hr
  rw [hheights] at hb
  change (50 : Rat) + margin ≤ _ at hx
  change (30 : Rat) + margin ≤ _ at hy
  have hmain : (diagram .alternating logic).mainBox =
      ⟨40, 50, (alternatingSize (items logic)).1, (alternatingSize (items logic)).2⟩ := rfl
  rw [hmain, hsize]
  simp only [margin] at hx hy
  push_cast at hx hy
  constructor <;> simp only [Box.grow] <;> linarith

/-- The main stage around the nodes of a grid ends a margin beyond the furthest of them. -/
theorem mainBox_grid {logic : Logic} {n : Node Rat} (hn : n ∈ (diagram .grid logic).nodes) :
    (diagram .grid logic).mainBox =
      ⟨40, 50, greatest ((diagram .grid logic).nodes.map (·.box.right)) - 40 + margin,
        greatest ((diagram .grid logic).nodes.map (·.box.bottom)) - 50 + margin⟩ := by
  have hne : (diagram .grid logic).nodes.isEmpty = false := by
    rw [List.isEmpty_eq_false_iff_exists_mem]
    exact ⟨n, hn⟩
  have hsize : (diagram .grid logic).mainBox =
      ⟨40, 50, (gridSize (diagram .grid logic).nodes).1,
        (gridSize (diagram .grid logic).nodes).2⟩ := rfl
  rw [hsize, gridSize, hne]
  rfl

/-- Boxes at the top keep a distance to the border of the main stage. -/
theorem grow_within_main {mode : LayoutMode} {logic : Logic} {n : Node Rat}
    (hn : n ∈ (diagram mode logic).nodes) :
    (n.box.grow 30).Within (diagram mode logic).mainBox := by
  have hmem : n.box ∈ boxes (corners mode (items logic)) ((items logic).map Item.size) := by
    rw [← boxes_nodes]
    exact List.mem_map.2 ⟨n, hn, rfl⟩
  cases mode with
  | alternating => exact grow_within_alternating hmem
  | grid =>
    obtain ⟨hx, hy⟩ := grid_bounds hmem
    have hr : n.box.x + n.box.width ≤ greatest ((diagram .grid logic).nodes.map (·.box.right)) :=
      le_greatest (List.mem_map.2 ⟨n, hn, rfl⟩)
    have hb : n.box.y + n.box.height ≤
        greatest ((diagram .grid logic).nodes.map (·.box.bottom)) :=
      le_greatest (List.mem_map.2 ⟨n, hn, rfl⟩)
    rw [mainBox_grid hn]
    constructor <;> simp only [Box.grow, margin] <;> push_cast <;> linarith

/-- Boxes at the top lie in the main stage. -/
theorem nodes_within_main {mode : LayoutMode} {logic : Logic} {n : Node Rat}
    (hn : n ∈ (diagram mode logic).nodes) : n.box.Within (diagram mode logic).mainBox :=
  (grow_within_main hn).of_grow (by norm_num)

/-- No point lies inside two tasks: two tasks of one stage do not intersect, and two others lie in
boxes at the top that do not. -/
theorem tasks_apart (mode : LayoutMode) (logic : Logic) :
    (diagram mode logic).taskNodes.Pairwise fun m n => m.box.Apart n.box := by
  have hinside : ∀ n ∈ (diagram mode logic).nodes, ∀ t ∈ (match n.kind with
      | .task => [n]
      | .stage => n.children), t.box.Within n.box := by
    intro n hn t ht
    split at ht
    · rw [List.mem_singleton.1 ht]
      exact ⟨le_refl _, le_refl _, le_refl _, le_refl _⟩
    · exact children_within hn ht
  unfold Diagram.taskNodes
  refine List.pairwise_flatMap.2 ⟨fun n hn => ?_, ?_⟩
  · split
    · exact List.pairwise_singleton _ _
    · exact (children_separated hn).imp Box.apart_of_intersects_eq_false
  · refine (nodes_separated mode logic).imp_of_mem fun {m n} hm hn h s hs t ht => ?_
    exact (Box.apart_of_intersects_eq_false h).of_within (hinside m hm s hs) (hinside n hn t ht)

theorem separated_diagram (mode : LayoutMode) (logic : Logic) :
    (diagram mode logic).Separated where
  nodes := nodes_separated mode logic
  children _ hn := children_separated hn
  inside _ hn _ hc := children_within hn hc
  tasks := tasks_apart mode logic
  main _ hn := nodes_within_main hn
  model := by
    constructor <;> simp only [Diagram.mainBox, Diagram.modelBox] <;> linarith

end Layout

/-- Every accepted description has a layout of either kind, and nothing in it overlaps. -/
theorem layOut_separated {raw : Json} {logic : Logic} (h : Logic.parse raw = .ok logic)
    (mode : LayoutMode) : ∃ d, layOut mode logic = .ok d ∧ d.Separated :=
  ⟨Layout.diagram mode logic, Layout.layOut_eq_ok (consistent_of_parse h) mode,
    Layout.separated_diagram mode logic⟩

theorem layOut_separated_sample :
    Logic.parse Logic.sampleValue = .ok Logic.sample ∧
      ∃ d, layOut .alternating Logic.sample = .ok d ∧ d.Separated :=
  ⟨Logic.parse_sampleValue, layOut_separated Logic.parse_sampleValue .alternating⟩

end CasePlan
