import CasePlan.Diagram.Layout
import CasePlan.Proofs.Logic.Lookup

/-!
# What a diagram shows

A layout shows every task and every stage of a consistent description once: tasks of no stage and
stages at the top, all other tasks in their stages.

* `mem_items_task`, `mem_items_stage`, `nodup_items`: what stands at the top, each item once.
* `Diagram.Depicts`: a diagram has the nodes of a description, whatever boxes they have.
  `depicts_diagram`: every layout has; `layOut_eq_ok`: a consistent description has a layout.
* `Diagram.Depicts.nodup_entries`: no two nodes have one slug, so every node is found by its own
  (`find?_of_mem`) and every task has a node (`find?_task`).
-/

namespace CasePlan

/-! ## What stands at the top -/

namespace Layout

variable {logic : Logic}

/-- The slug of an item. -/
def Item.slug : Item → Text
  | .task t => t.slug
  | .stage s => s.slug

/-- The name of an item. -/
def Item.name : Item → Text
  | .task t => t.displayName
  | .stage s => s.displayName

/-- The kind of node that an item has. -/
def Item.kind : Item → NodeKind
  | .task _ => .task
  | .stage _ => .stage

/-- The slugs of the tasks that an item holds. -/
def Item.members : Item → List Text
  | .task _ => []
  | .stage s => s.members

/-- The slugs of an item and of what it holds. -/
def Item.entrySlugs (item : Item) : List Text := item.slug :: item.members

theorem mem_itemsFrom_task {placed : List Text} {ts : List Task} {t : Task} :
    .task t ∈ itemsFrom logic placed ts ↔ t ∈ ts ∧ logic.stageOf? t.slug = none := by
  fun_induction itemsFrom logic placed ts with
  | case1 => simp
  | case2 placed u rest h ih =>
    simp only [List.mem_cons, Item.task.injEq, ih]
    constructor
    · rintro (rfl | ⟨ht, hn⟩)
      · exact ⟨.inl rfl, h⟩
      · exact ⟨.inr ht, hn⟩
    · rintro ⟨rfl | ht, hn⟩
      · exact .inl rfl
      · exact .inr ⟨ht, hn⟩
  | case3 placed u rest s h hs ih =>
    rw [ih, List.mem_cons]
    constructor
    · rintro ⟨ht, hn⟩
      exact ⟨.inr ht, hn⟩
    · rintro ⟨rfl | ht, hn⟩
      · simp [h] at hn
      · exact ⟨ht, hn⟩
  | case4 placed u rest s h hs ih =>
    simp only [List.mem_cons, reduceCtorEq, false_or, ih]
    constructor
    · rintro ⟨ht, hn⟩
      exact ⟨.inr ht, hn⟩
    · rintro ⟨rfl | ht, hn⟩
      · simp [h] at hn
      · exact ⟨ht, hn⟩

/-- The stages that stand among the items of some tasks are those of the tasks, unless they stand
already. -/
theorem mem_itemsFrom_stage (hc : logic.Consistent) {placed : List Text} {ts : List Task}
    {s : Stage} :
    .stage s ∈ itemsFrom logic placed ts ↔
      s.slug ∉ placed ∧ ∃ t ∈ ts, logic.stageOf? t.slug = some s := by
  fun_induction itemsFrom logic placed ts with
  | case1 => simp
  | case2 placed u rest h ih =>
    simp only [List.mem_cons, reduceCtorEq, false_or, ih, exists_eq_or_imp, h]
  | case3 placed u rest s' h hs' ih =>
    simp only [ih, List.mem_cons, exists_eq_or_imp, h, Option.some.injEq]
    refine and_congr_right fun hs => ⟨.inr, ?_⟩
    rintro (rfl | h)
    · exact absurd hs' hs
    · exact h
  | case4 placed u rest s' h hs' ih =>
    simp only [List.mem_cons, Item.stage.injEq, ih, exists_eq_or_imp, h, Option.some.injEq, not_or]
    constructor
    · rintro (rfl | ⟨⟨-, hs⟩, ht⟩)
      · exact ⟨hs', .inl rfl⟩
      · exact ⟨hs, .inr ht⟩
    · rintro ⟨hs, rfl | ⟨t, ht, hst⟩⟩
      · exact .inl rfl
      · by_cases he : s.slug = s'.slug
        · exact .inl (List.inj_on_of_nodup_map hc.nodup_stages
            (Logic.mem_of_stageOf?_eq_some hst).1 (Logic.mem_of_stageOf?_eq_some h).1 he)
        · exact .inr ⟨⟨he, hs⟩, t, ht, hst⟩

theorem nodup_itemsFrom (hc : logic.Consistent) {placed : List Text} {ts : List Task}
    (hnd : ts.Nodup) : (itemsFrom logic placed ts).Nodup := by
  fun_induction itemsFrom logic placed ts with
  | case1 => exact List.nodup_nil
  | case2 placed u rest h ih =>
    rw [List.nodup_cons] at hnd ⊢
    exact ⟨fun hm => hnd.1 (mem_itemsFrom_task.1 hm).1, ih hnd.2⟩
  | case3 placed u rest s h hs ih => exact ih (List.nodup_cons.1 hnd).2
  | case4 placed u rest s h hs ih =>
    rw [List.nodup_cons]
    exact ⟨fun hm => ((mem_itemsFrom_stage hc).1 hm).1 (by simp), ih (List.nodup_cons.1 hnd).2⟩

/-- Tasks of no stage stand at the top. -/
theorem mem_items_task {t : Task} :
    .task t ∈ items logic ↔ t ∈ logic.tasks ∧ logic.stageOf? t.slug = none :=
  mem_itemsFrom_task

/-- Every stage stands at the top. -/
theorem mem_items_stage (hc : logic.Consistent) {s : Stage} :
    .stage s ∈ items logic ↔ s ∈ logic.stages := by
  rw [items, mem_itemsFrom_stage hc]
  constructor
  · rintro ⟨-, t, -, h⟩
    exact (Logic.mem_of_stageOf?_eq_some h).1
  · intro hs
    obtain ⟨m, ms, hms⟩ := List.exists_cons_of_ne_nil (hc.stage s hs).members_ne_nil
    have hm : m ∈ s.members := by simp [hms]
    obtain ⟨t, ht, rfl⟩ := Logic.mem_slugs.1 ((hc.stage s hs).members_subset m hm)
    exact ⟨by simp, t, ht, hc.stageOf?_eq_some hs hm⟩

theorem nodup_items (hc : logic.Consistent) : (items logic).Nodup :=
  nodup_itemsFrom hc (List.Nodup.of_map _ hc.nodup_slugs)

/-- A consistent description names no stage member without a task. -/
theorem unknownMember?_eq_none (hc : logic.Consistent) : unknownMember? logic = none := by
  rw [unknownMember?, List.findSome?_eq_none_iff]
  rintro (t | s) hi
  · rfl
  · have hs := (mem_items_stage hc).1 hi
    simp only [List.find?_eq_none, Option.isNone_iff_eq_none]
    intro m hm hnone
    obtain ⟨t, -, -, ht⟩ := hc.exists_task? ((hc.stage s hs).members_subset m hm)
    rw [ht] at hnone
    exact absurd hnone (by simp)

/-- A task of no stage shares no slug with a stage and its members. -/
theorem disjoint_entrySlugs (hc : logic.Consistent) {t : Task} {s : Stage}
    (ht : .task t ∈ items logic) (hs : s ∈ logic.stages) :
    (Item.task t).entrySlugs.Disjoint (Item.stage s).entrySlugs := by
  obtain ⟨ht, hnone⟩ := mem_items_task.1 ht
  intro x hx hx'
  obtain rfl := List.mem_singleton.1 hx
  rcases List.mem_cons.1 hx' with h | h
  · have h : t.slug = s.slug := h
    exact (hc.stage s hs).slug_notMem (h ▸ Logic.mem_slugs.2 ⟨t, ht, rfl⟩)
  · exact Logic.stageOf?_eq_none_iff.1 hnone s hs h

/-- Two stages with a slug in common, their own or one of a member, are the same. -/
theorem eq_of_mem_entrySlugs (hc : logic.Consistent) {s s' : Stage} (hs : s ∈ logic.stages)
    (hs' : s' ∈ logic.stages) {x : Text} (hx : x ∈ (Item.stage s).entrySlugs)
    (hx' : x ∈ (Item.stage s').entrySlugs) : s = s' := by
  have hmember : ∀ {s s' : Stage}, s ∈ logic.stages → s' ∈ logic.stages → s.slug ∉ s'.members :=
    fun hs hs' h => (hc.stage _ hs).slug_notMem ((hc.stage _ hs').members_subset _ h)
  rcases List.mem_cons.1 hx with rfl | h <;> rcases List.mem_cons.1 hx' with h' | h'
  · exact List.inj_on_of_nodup_map hc.nodup_stages hs hs' h'
  · exact absurd h' (hmember hs hs')
  · have h' : x = s'.slug := h'
    exact absurd (h' ▸ h) (hmember hs' hs)
  · exact hc.eq_of_mem_members hs hs' h h'

/-- The slugs that stand in a diagram are all different. -/
theorem nodup_entrySlugs (hc : logic.Consistent) :
    ((items logic).flatMap Item.entrySlugs).Nodup := by
  refine List.nodup_flatMap.2 ⟨?_, (nodup_items hc).pairwise_of_forall_ne ?_⟩
  · rintro (t | s) hi
    · exact List.nodup_singleton _
    · have hs := (mem_items_stage hc).1 hi
      exact List.nodup_cons.2 ⟨fun h => (hc.stage s hs).slug_notMem
        ((hc.stage s hs).members_subset _ h), (List.nodup_flatMap.1 hc.nodup_members).1 s hs⟩
  · rintro (t | s) hi (t' | s') hi' hne x hx hx'
    · rw [List.mem_singleton.1 hx] at hx'
      exact hne (congrArg _ (List.inj_on_of_nodup_map hc.nodup_slugs (mem_items_task.1 hi).1
        (mem_items_task.1 hi').1 (List.mem_singleton.1 hx')))
    · exact disjoint_entrySlugs hc hi ((mem_items_stage hc).1 hi') hx hx'
    · exact disjoint_entrySlugs hc hi' ((mem_items_stage hc).1 hi) hx' hx
    · exact hne (congrArg _ (eq_of_mem_entrySlugs hc ((mem_items_stage hc).1 hi)
        ((mem_items_stage hc).1 hi') hx hx'))

/-- Every task stands in a diagram. -/
theorem mem_entrySlugs_of_mem_slugs (hc : logic.Consistent) {slug : Text}
    (h : slug ∈ logic.slugs) : slug ∈ (items logic).flatMap Item.entrySlugs := by
  obtain ⟨t, ht, rfl⟩ := Logic.mem_slugs.1 h
  rw [List.mem_flatMap]
  cases hs : logic.stageOf? t.slug with
  | none => exact ⟨.task t, mem_items_task.2 ⟨ht, hs⟩, by simp [Item.entrySlugs, Item.slug]⟩
  | some s =>
    obtain ⟨hmem, hin⟩ := Logic.mem_of_stageOf?_eq_some hs
    exact ⟨.stage s, (mem_items_stage hc).2 hmem, List.mem_cons_of_mem _ hin⟩

end Layout

/-! ## What the nodes show -/

open Layout

variable {α : Type} {logic : Logic} {d : Diagram α}

/-- A node stands for a task of a stage. -/
structure Node.ShowsMember (logic : Logic) (stage member : Text) (n : Node α) : Prop where
  /-- It has the slug of the task. -/
  slug : n.slug = member
  /-- It has the name of the task. -/
  name : n.name = ((logic.task? member).map (·.displayName)).getD []
  /-- It is a task. -/
  kind : n.kind = .task
  /-- It is in the stage. -/
  parent : n.parent = some stage
  /-- Nothing is in it. -/
  children : n.children = []

/-- A node stands for an item. -/
structure Node.Shows (logic : Logic) (item : Item) (n : Node α) : Prop where
  /-- It has the slug of the item. -/
  slug : n.slug = item.slug
  /-- It has the name of the item. -/
  name : n.name = item.name
  /-- It is a task or a stage as the item is. -/
  kind : n.kind = item.kind
  /-- It is in no stage. -/
  parent : n.parent = none
  /-- The tasks of the item are in it, in order. -/
  children : List.Forall₂ (Node.ShowsMember logic item.slug) item.members n.children

/-- A node stands for a stage. -/
structure Node.ShowsStage (s : Stage) (n : Node α) : Prop where
  /-- It has the slug of the stage. -/
  slug : n.slug = s.slug
  /-- It has the name of the stage. -/
  name : n.name = s.displayName
  /-- It is a stage. -/
  kind : n.kind = .stage
  /-- It is at the top. -/
  parent : n.parent = none

/-- A node stands for a task. -/
structure Node.ShowsTask (logic : Logic) (t : Task) (n : Node α) : Prop where
  /-- It has the slug of the task. -/
  slug : n.slug = t.slug
  /-- It has the name of the task. -/
  name : n.name = t.displayName
  /-- It is a task. -/
  kind : n.kind = .task
  /-- It is in the stage of the task. -/
  parent : n.parent = (logic.stageOf? t.slug).map (·.slug)
  /-- Nothing is in it. -/
  children : n.children = []

theorem Node.Shows.showsStage {s : Stage} {n : Node α} (h : n.Shows logic (.stage s)) :
    n.ShowsStage s :=
  ⟨h.slug, h.name, h.kind, h.parent⟩

/-- A node at the top shows a task of no stage. -/
theorem Node.Shows.showsTask {t : Task} {n : Node α} (h : n.Shows logic (.task t))
    (hstage : logic.stageOf? t.slug = none) : n.ShowsTask logic t := by
  refine ⟨h.slug, h.name, h.kind, ?_, List.forall₂_nil_left_iff.1 h.children⟩
  rw [h.parent, hstage]
  rfl

/-- The nodes of a diagram: those at the top, then those in each of them. -/
def Diagram.inOrder (d : Diagram α) : List (Node α) := d.nodes ++ d.nodes.flatMap (·.children)

/-- The two orders list the same nodes. -/
theorem Diagram.perm_inOrder (d : Diagram α) : d.inOrder.Perm d.entries := by
  unfold inOrder entries
  induction d.nodes with
  | nil => exact .nil
  | cons n ns ih =>
    rw [List.flatMap_cons, List.flatMap_cons, List.cons_append, List.cons_append]
    exact (List.perm_append_comm_assoc ..).trans (ih.append_left _) |>.cons n

theorem Diagram.mem_inOrder {n : Node α} :
    n ∈ d.inOrder ↔ n ∈ d.nodes ∨ ∃ m ∈ d.nodes, n ∈ m.children := by
  rw [inOrder, List.mem_append, List.mem_flatMap]

/-- The nodes of a diagram stand for the items of a description, in order. -/
def Diagram.Depicts (logic : Logic) (d : Diagram α) : Prop :=
  List.Forall₂ (Node.Shows logic) (items logic) d.nodes

theorem map_slug_of_showsMember {stage : Text} {slugs : List Text} {ns : List (Node α)}
    (h : List.Forall₂ (Node.ShowsMember logic stage) slugs ns) : ns.map (·.slug) = slugs := by
  induction h with
  | nil => rfl
  | cons hn _ ih => rw [List.map_cons, hn.slug, ih]

namespace Diagram.Depicts

/-- Nodes at the top are in no stage. -/
theorem parent_eq_none (hd : d.Depicts logic) {n : Node α} (hn : n ∈ d.nodes) : n.parent = none := by
  obtain ⟨item, -, h⟩ := exists_mem_left_of_forall₂ hd hn
  exact h.parent

/-- Nodes in a stage stand for its tasks. -/
theorem showsMember (hd : d.Depicts logic) {n c : Node α} (hn : n ∈ d.nodes)
    (hchild : c ∈ n.children) : ∃ member, c.ShowsMember logic n.slug member := by
  obtain ⟨item, -, h⟩ := exists_mem_left_of_forall₂ hd hn
  obtain ⟨member, -, hm⟩ := exists_mem_left_of_forall₂ h.children hchild
  exact ⟨member, h.slug ▸ hm⟩

/-- The slugs of all nodes are those of the items and of what they hold. -/
theorem map_slug_entries (hd : d.Depicts logic) :
    d.entries.map (·.slug) = (items logic).flatMap Item.entrySlugs := by
  unfold Depicts at hd
  rw [Diagram.entries]
  generalize items logic = is, d.nodes = ns at hd
  induction hd with
  | nil => rfl
  | cons hn _ ih =>
    rw [List.flatMap_cons, List.map_append, ih, List.flatMap_cons, List.map_cons, hn.slug,
      map_slug_of_showsMember hn.children, Item.entrySlugs]

theorem nodup_entries (hd : d.Depicts logic) (hc : logic.Consistent) :
    (d.entries.map (·.slug)).Nodup := by
  rw [hd.map_slug_entries]
  exact nodup_entrySlugs hc

/-- No two nodes have one slug. -/
theorem nodup_inOrder (hd : d.Depicts logic) (hc : logic.Consistent) :
    (d.inOrder.map (·.slug)).Nodup :=
  (d.perm_inOrder.map (·.slug)).nodup_iff.2 (hd.nodup_entries hc)

/-- Every node is found by its slug. -/
theorem find?_of_mem (hd : d.Depicts logic) (hc : logic.Consistent) {n : Node α}
    (hn : n ∈ d.entries) : d.find? n.slug = some n := by
  unfold Diagram.find?
  cases h : d.entries.reverse.find? (·.slug = n.slug) with
  | none => exact absurd (List.find?_eq_none.1 h n (by simpa using hn)) (by simp)
  | some m =>
    have hm : m ∈ d.entries := by simpa using List.mem_of_find?_eq_some h
    have hslug : m.slug = n.slug := by simpa using List.find?_some h
    rw [List.inj_on_of_nodup_map (hd.nodup_entries hc) hm hn hslug]

/-- Every task has a node, which is found by its slug. -/
theorem find?_task (hd : d.Depicts logic) (hc : logic.Consistent) {slug : Text}
    (h : slug ∈ logic.slugs) : ∃ n ∈ d.entries, n.slug = slug ∧ d.find? slug = some n := by
  have hmem := mem_entrySlugs_of_mem_slugs hc h
  rw [← hd.map_slug_entries, List.mem_map] at hmem
  obtain ⟨n, hn, rfl⟩ := hmem
  exact ⟨n, hn, rfl, hd.find?_of_mem hc hn⟩

/-- Every node stands for a stage or a task. -/
theorem shows_of_mem (hd : d.Depicts logic) (hc : logic.Consistent) {n : Node α}
    (hn : n ∈ d.inOrder) :
    (∃ s ∈ logic.stages, n.ShowsStage s) ∨ ∃ t ∈ logic.tasks, n.ShowsTask logic t := by
  rcases Diagram.mem_inOrder.1 hn with hn | ⟨m, hm, hn⟩
  · obtain ⟨item, hitem, h⟩ := exists_mem_left_of_forall₂ hd hn
    cases item with
    | task t =>
      obtain ⟨ht, hstage⟩ := mem_items_task.1 hitem
      exact .inr ⟨t, ht, h.showsTask hstage⟩
    | stage s => exact .inl ⟨s, (mem_items_stage hc).1 hitem, h.showsStage⟩
  · obtain ⟨item, hitem, h⟩ := exists_mem_left_of_forall₂ hd hm
    obtain ⟨member, hmember, hshows⟩ := exists_mem_left_of_forall₂ h.children hn
    cases item with
    | task t => exact absurd hmember (by simp [Item.members])
    | stage s =>
      have hs := (mem_items_stage hc).1 hitem
      obtain ⟨t, ht, rfl, htask⟩ := hc.exists_task? ((hc.stage s hs).members_subset member hmember)
      refine .inr ⟨t, ht, hshows.slug, ?_, hshows.kind, ?_, hshows.children⟩
      · rw [hshows.name, htask]
        rfl
      · rw [hshows.parent, hc.stageOf?_eq_some hs hmember]
        rfl

/-- Every stage has a node. -/
theorem exists_showsStage (hd : d.Depicts logic) (hc : logic.Consistent) {s : Stage}
    (hs : s ∈ logic.stages) : ∃ n ∈ d.inOrder, n.ShowsStage s := by
  obtain ⟨n, hn, h⟩ := exists_mem_left_of_forall₂ hd.flip ((mem_items_stage hc).2 hs)
  exact ⟨n, Diagram.mem_inOrder.2 (.inl hn), h.showsStage⟩

/-- Every task has a node. -/
theorem exists_showsTask (hd : d.Depicts logic) (hc : logic.Consistent) {t : Task}
    (ht : t ∈ logic.tasks) : ∃ n ∈ d.inOrder, n.ShowsTask logic t := by
  have hslug : t.slug ∈ logic.slugs := Logic.mem_slugs.2 ⟨t, ht, rfl⟩
  obtain ⟨n, hn, hn', -⟩ := hd.find?_task hc hslug
  have hmem := d.perm_inOrder.mem_iff.2 hn
  refine ⟨n, hmem, ?_⟩
  rcases hd.shows_of_mem hc hmem with ⟨s, hs, h⟩ | ⟨t', ht', h⟩
  · exact absurd (h.slug ▸ hn' ▸ hslug) (hc.stage s hs).slug_notMem
  · rwa [List.inj_on_of_nodup_map hc.nodup_slugs ht ht' (hn'.symm.trans h.slug)]

end Diagram.Depicts

/-! ## Every layout depicts its description -/

namespace Layout

theorem diagram_nodes (mode : LayoutMode) (logic : Logic) :
    (diagram mode logic).nodes =
      ((items logic).zip (corners mode (items logic))).map fun x => x.1.node logic x.2 := by
  cases mode <;> rfl

@[simp] theorem length_corners (mode : LayoutMode) (items : List Item) :
    (corners mode items).length = items.length := by
  cases mode <;> simp [corners, alternate, gridCorners]

theorem shows_node (logic : Logic) (item : Item) (corner : Point Rat) :
    (item.node logic corner).Shows logic item := by
  cases item with
  | task t => exact ⟨rfl, rfl, rfl, rfl, .nil⟩
  | stage s =>
    refine ⟨rfl, rfl, rfl, rfl, ?_⟩
    show List.Forall₂ _ s.members (members logic s corner)
    have hlen : s.members.length =
        (alternate corner (s.members.map fun _ => ((taskWidth : Rat), (taskHeight : Rat)))).length := by
      simp [alternate]
    unfold members
    generalize alternate corner _ = corners at hlen
    generalize s.members = slugs at hlen
    induction slugs generalizing corners with
    | nil => exact .nil
    | cons slug slugs ih =>
      cases corners with
      | nil => simp at hlen
      | cons c corners => exact .cons ⟨rfl, rfl, rfl, rfl, rfl⟩ (ih corners (by simpa using hlen))

/-- A layout has the nodes of its description. -/
theorem depicts_diagram (mode : LayoutMode) (logic : Logic) :
    (diagram mode logic).Depicts logic := by
  unfold Diagram.Depicts
  rw [diagram_nodes]
  have hlen := (length_corners mode (items logic)).symm
  generalize corners mode (items logic) = corners at hlen
  generalize items logic = is at hlen
  induction is generalizing corners with
  | nil => exact .nil
  | cons item is ih =>
    cases corners with
    | nil => simp at hlen
    | cons c corners => exact .cons (shows_node logic item c) (ih corners (by simpa using hlen))

/-- A consistent description has a layout. -/
theorem layOut_eq_ok {logic : Logic} (hc : logic.Consistent) (mode : LayoutMode) :
    layOut mode logic = .ok (diagram mode logic) := by
  rw [layOut, unknownMember?_eq_none hc]

/-- A layout depends on tasks and stages only. -/
theorem layOut_congr {logic logic' : Logic} (htasks : logic.tasks = logic'.tasks)
    (hstages : logic.stages = logic'.stages) (mode : LayoutMode) :
    layOut mode logic = layOut mode logic' := by
  obtain ⟨tasks, patterns, stages⟩ := logic
  obtain ⟨tasks', patterns', stages'⟩ := logic'
  obtain rfl : tasks = tasks' := htasks
  obtain rfl : stages = stages' := hstages
  have hfrom : ∀ (ts : List Task) (placed : List Text),
      itemsFrom ⟨tasks, patterns, stages⟩ placed ts =
        itemsFrom ⟨tasks, patterns', stages⟩ placed ts := by
    intro ts
    induction ts with
    | nil => exact fun _ => rfl
    | cons t ts ih =>
      intro placed
      rw [itemsFrom, itemsFrom]
      simp only [ih]
      rfl
  have hitems : items ⟨tasks, patterns, stages⟩ = items ⟨tasks, patterns', stages⟩ :=
    hfrom tasks []
  unfold layOut unknownMember? diagram
  rw [hitems]
  rfl

end Layout

end CasePlan
