import CasePlan.Proofs.Diagram.Order
import CasePlan.Table
import Mathlib.Data.List.Induction

/-!
# A diagram divides its description up

In the diagram of an accepted description every task and every stage has one node.  A task of no
stage is a leaf at the top; every other task is in the node of its stage, where the stage names it.

* `Item.place`, `Node.place`: where the first task of an item or of a node comes in the description.
* `pairwise_place_items`: items stand in the order of their first tasks.  `notMem_entrySlugs` is the
  step: what stands behind a task does not hold the task.
* `Diagram.index`: the nodes under their slugs; `get?_index` says that looking one up finds the
  node, `Depicts.index_eq` that no node hides another.
* `Diagram.Partitions`, `Depicts.partitions`: how the nodes divide the description up.
* `layOut_partitions`: the layouts of an accepted description do so.
-/

namespace CasePlan

open Layout

variable {α : Type} {logic : Logic} {d : Diagram α}

/-! ## The order of the first tasks -/

namespace Layout

/-- Where the first task of an item comes among some tasks. -/
def Item.place (ts : List Task) (item : Item) : Nat :=
  ts.findIdx fun t => t.slug ∈ item.entrySlugs

theorem place_cons_of_mem {t : Task} {ts : List Task} {item : Item}
    (h : t.slug ∈ item.entrySlugs) : item.place (t :: ts) = 0 := by
  rw [Item.place, List.findIdx_cons, decide_eq_true h, cond_true]

theorem place_cons_of_notMem {t : Task} {ts : List Task} {item : Item}
    (h : t.slug ∉ item.entrySlugs) : item.place (t :: ts) = item.place ts + 1 := by
  rw [Item.place, List.findIdx_cons, decide_eq_false h, cond_false, Item.place]

/-- The items of the tasks behind a task do not hold it, if its stage stands already. -/
theorem notMem_entrySlugs (hc : logic.Consistent) {placed : List Text} {t : Task} {ts : List Task}
    (hts : ∀ u ∈ t :: ts, u ∈ logic.tasks) (hnew : t.slug ∉ ts.map (·.slug))
    (hplaced : ∀ s, logic.stageOf? t.slug = some s → s.slug ∈ placed) {item : Item}
    (hitem : item ∈ itemsFrom logic placed ts) : t.slug ∉ item.entrySlugs := by
  intro hmem
  cases item with
  | task u =>
    have hu := (mem_itemsFrom_task.1 hitem).1
    have heq : t.slug = u.slug := List.mem_singleton.1 hmem
    exact hnew (heq ▸ List.mem_map_of_mem hu)
  | stage s =>
    obtain ⟨hnot, u, -, hu⟩ := (mem_itemsFrom_stage hc).1 hitem
    have hs := (Logic.mem_of_stageOf?_eq_some hu).1
    rcases List.mem_cons.1 hmem with heq | hmem
    · have heq : t.slug = s.slug := heq
      have hslug : t.slug ∈ logic.slugs := Logic.mem_slugs.2 ⟨t, hts t (by simp), rfl⟩
      exact (hc.stage s hs).slug_notMem (heq ▸ hslug)
    · exact hnot (hplaced s (hc.stageOf?_eq_some hs hmem))

theorem pairwise_place_itemsFrom (hc : logic.Consistent) {placed : List Text} {ts : List Task}
    (hts : ∀ t ∈ ts, t ∈ logic.tasks) (hnd : (ts.map (·.slug)).Nodup) :
    (itemsFrom logic placed ts).Pairwise fun i j => i.place ts < j.place ts := by
  -- every step adds the first task to the list in which all places are counted
  have hshift : ∀ {placed : List Text} {t : Task} {ts : List Task},
      (∀ u ∈ t :: ts, u ∈ logic.tasks) → t.slug ∉ ts.map (·.slug) →
      (∀ s, logic.stageOf? t.slug = some s → s.slug ∈ placed) →
      (itemsFrom logic placed ts).Pairwise (fun i j => i.place ts < j.place ts) →
      (itemsFrom logic placed ts).Pairwise fun i j => i.place (t :: ts) < j.place (t :: ts) := by
    intro placed t ts hts hnew hplaced h
    refine h.imp_of_mem fun hi hj hlt => ?_
    rw [place_cons_of_notMem (notMem_entrySlugs hc hts hnew hplaced hi),
      place_cons_of_notMem (notMem_entrySlugs hc hts hnew hplaced hj)]
    exact Nat.succ_lt_succ hlt
  fun_induction itemsFrom logic placed ts with
  | case1 => exact .nil
  | case2 placed t ts hnone ih =>
    rw [List.map_cons, List.nodup_cons] at hnd
    have hplaced : ∀ s, logic.stageOf? t.slug = some s → s.slug ∈ placed := by simp [hnone]
    refine List.pairwise_cons.2 ⟨fun item hitem => ?_,
      hshift hts hnd.1 hplaced (ih (fun u hu => hts u (by simp [hu])) hnd.2)⟩
    rw [place_cons_of_mem (by simp [Item.entrySlugs, Item.slug]),
      place_cons_of_notMem (notMem_entrySlugs hc hts hnd.1 hplaced hitem)]
    exact Nat.succ_pos _
  | case3 placed t ts s hstage hs ih =>
    rw [List.map_cons, List.nodup_cons] at hnd
    have hplaced : ∀ s, logic.stageOf? t.slug = some s → s.slug ∈ placed := by simpa [hstage]
    exact hshift hts hnd.1 hplaced (ih (fun u hu => hts u (by simp [hu])) hnd.2)
  | case4 placed t ts s hstage hs ih =>
    rw [List.map_cons, List.nodup_cons] at hnd
    have hplaced : ∀ s', logic.stageOf? t.slug = some s' → s'.slug ∈ s.slug :: placed := by
      simp [hstage]
    refine List.pairwise_cons.2 ⟨fun item hitem => ?_,
      hshift hts hnd.1 hplaced (ih (fun u hu => hts u (by simp [hu])) hnd.2)⟩
    have hmember := (Logic.mem_of_stageOf?_eq_some hstage).2
    rw [place_cons_of_mem (List.mem_cons_of_mem _ hmember),
      place_cons_of_notMem (notMem_entrySlugs hc hts hnd.1 hplaced hitem)]
    exact Nat.succ_pos _

/-- The items of a description stand in the order of their first tasks. -/
theorem pairwise_place_items (hc : logic.Consistent) :
    (items logic).Pairwise fun i j => i.place logic.tasks < j.place logic.tasks :=
  pairwise_place_itemsFrom hc (fun _ h => h) hc.nodup_slugs

/-- Every item has a first task. -/
theorem place_lt_length (hc : logic.Consistent) {item : Item} (hitem : item ∈ items logic) :
    item.place logic.tasks < logic.tasks.length := by
  rw [Item.place, List.findIdx_lt_length]
  cases item with
  | task t => exact ⟨t, (mem_items_task.1 hitem).1, by simp [Item.entrySlugs, Item.slug]⟩
  | stage s =>
    have hs := hc.stage s ((mem_items_stage hc).1 hitem)
    obtain ⟨m, ms, hms⟩ := List.exists_cons_of_ne_nil hs.members_ne_nil
    have hm : m ∈ s.members := by simp [hms]
    obtain ⟨t, ht, rfl⟩ := Logic.mem_slugs.1 (hs.members_subset m hm)
    exact ⟨t, ht, decide_eq_true (List.mem_cons_of_mem _ hm)⟩

/-- The slugs that stand in a diagram are those of the tasks and of the stages. -/
theorem perm_entrySlugs (hc : logic.Consistent) :
    ((items logic).flatMap Item.entrySlugs).Perm (logic.slugs ++ logic.stages.map (·.slug)) := by
  have hdisjoint : (logic.slugs ++ logic.stages.map (·.slug)).Nodup := by
    refine List.nodup_append.2 ⟨hc.nodup_slugs, hc.nodup_stages, ?_⟩
    rintro slug hslug other hother rfl
    obtain ⟨s, hs, rfl⟩ := List.mem_map.1 hother
    exact (hc.stage s hs).slug_notMem hslug
  refine (List.perm_ext_iff_of_nodup (nodup_entrySlugs hc) hdisjoint).2 fun slug => ?_
  rw [List.mem_append]
  constructor
  · intro h
    obtain ⟨item, hitem, h⟩ := List.mem_flatMap.1 h
    cases item with
    | task t =>
      obtain rfl := List.mem_singleton.1 h
      exact .inl (Logic.mem_slugs.2 ⟨t, (mem_items_task.1 hitem).1, rfl⟩)
    | stage s =>
      have hs := (mem_items_stage hc).1 hitem
      rcases List.mem_cons.1 h with rfl | h
      · exact .inr (List.mem_map_of_mem hs)
      · exact .inl ((hc.stage s hs).members_subset slug h)
  · rintro (h | h)
    · exact mem_entrySlugs_of_mem_slugs hc h
    · obtain ⟨s, hs, rfl⟩ := List.mem_map.1 h
      exact List.mem_flatMap.2 ⟨.stage s, (mem_items_stage hc).2 hs, List.mem_cons_self⟩

end Layout

/-! ## Nodes under their slugs -/

namespace Diagram

/-- All nodes under their slugs; of several nodes with one slug the last stays. -/
def index (d : Diagram α) : List (Text × Node α) :=
  Table.ofList (d.entries.map fun n => (n.slug, n))

/-- To look a slug up is to find its node. -/
theorem get?_index (d : Diagram α) (slug : Text) : Table.get? slug d.index = d.find? slug := by
  unfold index find? Table.ofList
  -- the node entered last is the first one in the reversed list
  induction d.entries using List.reverseRecOn with
  | nil => rfl
  | append_singleton ns n ih =>
    rw [List.map_append, List.foldl_append, List.reverse_append]
    show Table.get? slug (Table.insert n.slug n _) = List.find? _ (n :: ns.reverse)
    by_cases h : n.slug = slug
    · rw [List.find?_cons_of_pos (by simpa using h), ← h, Table.get?_insert_self]
    · rw [List.find?_cons_of_neg (by simpa using h), Table.get?_insert_of_ne n _ h, ih]

end Diagram

/-- Where the first task of a node comes in a description: that of the node itself, or that of a node
in it. -/
def Node.place (logic : Logic) (n : Node α) : Nat :=
  logic.tasks.findIdx fun t => t.slug ∈ n.slug :: n.children.map (·.slug)

/-- A node holds the tasks of a stage one by one, as the stage names them. -/
def Node.HoldsTasksOf (logic : Logic) (s : Stage) (n : Node α) : Prop :=
  List.Forall₂ (fun member c => ∃ t ∈ logic.tasks,
    t.slug = member ∧ c.ShowsTask logic t ∧ c.parent = some s.slug) s.members n.children

/-- The nodes of a diagram divide a description up. -/
structure Diagram.Partitions (logic : Logic) (d : Diagram α) : Prop where
  /-- Nothing stands twice. -/
  nodup : (d.entries.map (·.slug)).Nodup
  /-- The tasks and the stages stand, and nothing else. -/
  perm : (d.entries.map (·.slug)).Perm (logic.slugs ++ logic.stages.map (·.slug))
  /-- At the top there are stages, and tasks of no stage. -/
  top : ∀ n ∈ d.nodes, n.parent = none ∧
    ((∃ s ∈ logic.stages, n.ShowsStage s) ∨ ∃ t ∈ logic.tasks, n.ShowsTask logic t)
  /-- Leaves at the top are the tasks that no stage names. -/
  leaf : ∀ t ∈ logic.tasks,
    (∃ n ∈ d.nodes, n.ShowsTask logic t) ↔ ∀ s ∈ logic.stages, t.slug ∉ s.members
  /-- Every stage is at the top, with the tasks that it names in it. -/
  stage : ∀ s ∈ logic.stages, ∃ n ∈ d.nodes, n.ShowsStage s ∧ n.HoldsTasksOf logic s
  /-- Every node at the top has a first task. -/
  place_lt : ∀ n ∈ d.nodes, n.place logic < logic.tasks.length
  /-- The nodes at the top come in the order of their first tasks. -/
  order : d.nodes.Pairwise fun m n => m.place logic < n.place logic
  /-- The tasks and the stages are the keys of the index, -/
  keys : (d.index.map Prod.fst).Perm (logic.slugs ++ logic.stages.map (·.slug))
  /-- each once. -/
  nodup_keys : (d.index.map Prod.fst).Nodup
  /-- Under the slug of a task is its node. -/
  index_task : ∀ t ∈ logic.tasks, ∃ n ∈ d.entries,
    Table.get? t.slug d.index = some n ∧ n.ShowsTask logic t
  /-- Under the slug of a stage is its node. -/
  index_stage : ∀ s ∈ logic.stages, ∃ n ∈ d.nodes,
    Table.get? s.slug d.index = some n ∧ n.ShowsStage s

namespace Diagram.Depicts

/-- No node hides another in the index. -/
theorem index_eq (hd : d.Depicts logic) (hc : logic.Consistent) :
    d.index = d.entries.map fun n => (n.slug, n) := by
  refine Table.ofList_eq_self ?_
  rw [List.map_map]
  exact hd.nodup_entries hc

theorem map_fst_index (hd : d.Depicts logic) (hc : logic.Consistent) :
    d.index.map Prod.fst = d.entries.map (·.slug) := by
  rw [hd.index_eq hc, List.map_map]
  rfl

theorem place_eq {item : Item} {n : Node α} (h : n.Shows logic item) :
    n.place logic = item.place logic.tasks := by
  rw [Node.place, h.slug, map_slug_of_showsMember h.children]
  rfl

/-- The nodes at the top are in the order of their first tasks. -/
theorem pairwise_place (hd : d.Depicts logic) (hc : logic.Consistent) :
    d.nodes.Pairwise fun m n => m.place logic < n.place logic := by
  have hplaces : (items logic).map (·.place logic.tasks) = d.nodes.map (·.place logic) :=
    map_eq_map_of_forall₂ (hd.imp fun _ _ h => (place_eq h).symm)
  have hlt : ((items logic).map (·.place logic.tasks)).Pairwise (· < ·) :=
    List.pairwise_map.2 (pairwise_place_items hc)
  rw [hplaces] at hlt
  exact List.pairwise_map.1 hlt

/-- In the node of a stage are its tasks. -/
theorem holdsTasksOf (hd : d.Depicts logic) (hc : logic.Consistent) {s : Stage} {n : Node α}
    (hn : n ∈ d.nodes) (h : n.Shows logic (.stage s)) : n.HoldsTasksOf logic s := by
  refine forall₂_imp_of_mem h.children fun member c hchild hmember => ?_
  rcases hd.shows_of_mem hc (Diagram.mem_inOrder.2 (.inr ⟨n, hn, hchild⟩)) with
    ⟨s', -, hstage⟩ | ⟨t, ht, htask⟩
  · exact absurd (hstage.kind.symm.trans hmember.kind) (by simp)
  · exact ⟨t, ht, htask.slug.symm.trans hmember.slug, htask, hmember.parent⟩

/-- A task is a leaf at the top exactly if no stage names it. -/
theorem leaf_iff (hd : d.Depicts logic) {t : Task} (ht : t ∈ logic.tasks) :
    (∃ n ∈ d.nodes, n.ShowsTask logic t) ↔ ∀ s ∈ logic.stages, t.slug ∉ s.members := by
  rw [← Logic.stageOf?_eq_none_iff]
  constructor
  · rintro ⟨n, hn, h⟩
    have hparent := h.parent
    rw [hd.parent_eq_none hn] at hparent
    exact Option.map_eq_none_iff.1 hparent.symm
  · intro hnone
    obtain ⟨n, hn, h⟩ := exists_mem_left_of_forall₂ hd.flip (mem_items_task.2 ⟨ht, hnone⟩)
    exact ⟨n, hn, h.showsTask hnone⟩

/-- The nodes of a consistent description divide it up. -/
theorem partitions (hd : d.Depicts logic) (hc : logic.Consistent) : d.Partitions logic := by
  have hperm : (d.entries.map (·.slug)).Perm (logic.slugs ++ logic.stages.map (·.slug)) := by
    rw [hd.map_slug_entries]
    exact perm_entrySlugs hc
  have hstage : ∀ s ∈ logic.stages, ∃ n ∈ d.nodes, n.Shows logic (.stage s) := fun s hs =>
    exists_mem_left_of_forall₂ hd.flip ((mem_items_stage hc).2 hs)
  have hget : ∀ n ∈ d.entries, Table.get? n.slug d.index = some n := fun n hn => by
    rw [d.get?_index, hd.find?_of_mem hc hn]
  constructor
  case nodup => exact hd.nodup_entries hc
  case perm => exact hperm
  case top =>
    intro n hn
    exact ⟨hd.parent_eq_none hn, hd.shows_of_mem hc (Diagram.mem_inOrder.2 (.inl hn))⟩
  case leaf => exact fun t ht => hd.leaf_iff ht
  case stage =>
    intro s hs
    obtain ⟨n, hn, h⟩ := hstage s hs
    exact ⟨n, hn, h.showsStage, hd.holdsTasksOf hc hn h⟩
  case place_lt =>
    intro n hn
    obtain ⟨item, hitem, h⟩ := exists_mem_left_of_forall₂ hd hn
    rw [place_eq h]
    exact place_lt_length hc hitem
  case order => exact hd.pairwise_place hc
  case keys => rwa [hd.map_fst_index hc]
  case nodup_keys =>
    rw [hd.map_fst_index hc]
    exact hd.nodup_entries hc
  case index_task =>
    intro t ht
    obtain ⟨n, hn, h⟩ := hd.exists_showsTask hc ht
    have hn := d.perm_inOrder.mem_iff.1 hn
    exact ⟨n, hn, h.slug ▸ hget n hn, h⟩
  case index_stage =>
    intro s hs
    obtain ⟨n, hn, h⟩ := hstage s hs
    have hentry := d.perm_inOrder.mem_iff.1 (Diagram.mem_inOrder.2 (.inl hn))
    exact ⟨n, hn, h.showsStage.slug ▸ hget n hentry, h.showsStage⟩

end Diagram.Depicts

/-- Every accepted description has a layout of either kind, and its nodes divide the description
up. -/
theorem layOut_partitions {raw : Json} {logic : Logic} (h : Logic.parse raw = .ok logic)
    (mode : LayoutMode) : ∃ d, layOut mode logic = .ok d ∧ d.Partitions logic :=
  have hc := consistent_of_parse h
  ⟨diagram mode logic, layOut_eq_ok hc mode, (depicts_diagram mode logic).partitions hc⟩

theorem layOut_partitions_sample :
    Logic.parse Logic.sampleValue = .ok Logic.sample ∧
      ∃ d, layOut .grid Logic.sample = .ok d ∧ d.Partitions Logic.sample :=
  ⟨Logic.parse_sampleValue, layOut_partitions Logic.parse_sampleValue .grid⟩

end CasePlan
