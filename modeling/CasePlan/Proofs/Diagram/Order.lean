import CasePlan.Proofs.Diagram.Separation

/-!
# The order of a diagram

Read from one node to the next, with every stage giving way to its members, a diagram lists all
tasks; its stages come in the order of their first tasks.

* `Logic.inDiagramOrder`, `Logic.stagesInDiagramOrder`: the tasks and the stages in that order.
* `perm_inDiagramOrder`, `perm_stagesInDiagramOrder`: they are those of the description.
* `eraseDups_stageOf_inDiagramOrder`: the stages of the tasks, in order, each once.
* `filter_inDiagramOrder`: the tasks of a stage come as they stand in it.
* `map_slug_taskNodes`, `map_slug_stageNodes`: a diagram shows tasks and stages in that order.
-/

namespace CasePlan

/-- What is made from the items of a list that differ, if it is made from one of them only. -/
theorem flatMap_eq_of_mem {α β : Type} {f : α → List β} {l : List α} (hnd : l.Nodup) {x : α}
    (hx : x ∈ l) (h : ∀ y ∈ l, y ≠ x → f y = []) : l.flatMap f = f x := by
  induction l with
  | nil => exact absurd hx List.not_mem_nil
  | cons y l ih =>
    rw [List.nodup_cons] at hnd
    rw [List.flatMap_cons]
    rcases List.mem_cons.1 hx with rfl | hx
    · have hrest : l.flatMap f = [] := List.flatMap_eq_nil_iff.2 fun z hz =>
        h z (by simp [hz]) fun e => hnd.1 (e ▸ hz)
      rw [hrest, List.append_nil]
    · rw [h y (by simp) fun e => hnd.1 (e ▸ hx), List.nil_append,
        ih hnd.2 hx fun z hz => h z (by simp [hz])]

namespace Layout

/-- The tasks that an item stands for. -/
def Item.tasks (logic : Logic) : Item → List Task
  | .task t => [t]
  | .stage s => s.members.filterMap logic.task?

/-- The stage that an item is. -/
def Item.stage? : Item → Option Stage
  | .task _ => none
  | .stage s => some s

end Layout

open Layout

namespace Logic

variable {logic : Logic}

/-- The tasks in the order of a diagram. -/
def inDiagramOrder (logic : Logic) : List Task := (items logic).flatMap (Item.tasks logic)

/-- The stages in the order of a diagram. -/
def stagesInDiagramOrder (logic : Logic) : List Stage := (items logic).filterMap Item.stage?

theorem mem_inDiagramOrder (hc : logic.Consistent) {t : Task} :
    t ∈ logic.inDiagramOrder ↔ t ∈ logic.tasks := by
  rw [inDiagramOrder, List.mem_flatMap]
  constructor
  · rintro ⟨u | s, hitem, ht⟩
    · obtain rfl := List.mem_singleton.1 ht
      exact (mem_items_task.1 hitem).1
    · obtain ⟨slug, -, ht⟩ := List.mem_filterMap.1 ht
      exact (mem_of_task?_eq_some ht).1
  · intro ht
    cases hs : logic.stageOf? t.slug with
    | none => exact ⟨.task t, mem_items_task.2 ⟨ht, hs⟩, List.mem_singleton_self t⟩
    | some s =>
      obtain ⟨hmem, hin⟩ := mem_of_stageOf?_eq_some hs
      exact ⟨.stage s, (mem_items_stage hc).2 hmem,
        List.mem_filterMap.2 ⟨t.slug, hin, hc.task?_eq_some ht⟩⟩

/-- The members of a stage are the slugs of its tasks. -/
theorem map_slug_tasks (hc : logic.Consistent) {s : Stage} (hs : s ∈ logic.stages) :
    ((Item.stage s).tasks logic).map (·.slug) = s.members := by
  have hall := (hc.stage s hs).members_subset
  rw [Item.tasks]
  generalize s.members = slugs at hall
  induction slugs with
  | nil => rfl
  | cons slug slugs ih =>
    obtain ⟨t, -, hslug, htask⟩ := hc.exists_task? (hall slug (by simp))
    rw [List.filterMap_cons_some htask, List.map_cons, hslug, ih fun m hm => hall m (by simp [hm])]

theorem nodup_inDiagramOrder (hc : logic.Consistent) :
    (logic.inDiagramOrder.map (·.slug)).Nodup := by
  have hsub : ∀ is : List Item, (∀ item ∈ is, item ∈ items logic) →
      ((is.flatMap (Item.tasks logic)).map (·.slug)).Sublist (is.flatMap Item.entrySlugs) := by
    intro is his
    induction is with
    | nil => exact .slnil
    | cons item is ih =>
      rw [List.flatMap_cons, List.flatMap_cons, List.map_append]
      refine List.Sublist.append ?_ (ih fun i hi => his i (by simp [hi]))
      cases item with
      | task t => exact List.Sublist.refl _
      | stage s =>
        rw [map_slug_tasks hc ((mem_items_stage hc).1 (his _ (by simp)))]
        exact List.sublist_cons_self _ _
  exact (hsub _ fun _ h => h).nodup (nodup_entrySlugs hc)

/-- A diagram lists all tasks. -/
theorem perm_inDiagramOrder (hc : logic.Consistent) : logic.inDiagramOrder.Perm logic.tasks :=
  (List.perm_ext_iff_of_nodup (List.Nodup.of_map _ (nodup_inDiagramOrder hc))
    (List.Nodup.of_map _ hc.nodup_slugs)).2 fun _ => mem_inDiagramOrder hc

theorem mem_stagesInDiagramOrder (hc : logic.Consistent) {s : Stage} :
    s ∈ logic.stagesInDiagramOrder ↔ s ∈ logic.stages := by
  rw [stagesInDiagramOrder, List.mem_filterMap, ← mem_items_stage hc]
  constructor
  · rintro ⟨t | s', hitem, h⟩
    · exact absurd h (by simp [Item.stage?])
    · obtain rfl := Option.some.inj h
      exact hitem
  · exact fun h => ⟨.stage s, h, rfl⟩

/-- A diagram lists all stages. -/
theorem perm_stagesInDiagramOrder (hc : logic.Consistent) :
    logic.stagesInDiagramOrder.Perm logic.stages := by
  have hnodup : logic.stagesInDiagramOrder.Nodup := by
    refine List.Nodup.filterMap ?_ (nodup_items hc)
    rintro (t | s) (t' | s') s'' h h'
    · exact absurd h (by simp [Item.stage?])
    · exact absurd h (by simp [Item.stage?])
    · exact absurd h' (by simp [Item.stage?])
    · obtain rfl := Option.some.inj h
      obtain rfl := Option.some.inj h'
      rfl
  exact (List.perm_ext_iff_of_nodup hnodup (List.Nodup.of_map _ hc.nodup_stages)).2 fun _ =>
    mem_stagesInDiagramOrder hc

/-! ## The stages of the tasks -/

theorem stageOf?_of_mem_tasks (hc : logic.Consistent) {item : Item} (hitem : item ∈ items logic)
    {t : Task} (ht : t ∈ item.tasks logic) : logic.stageOf? t.slug = item.stage? := by
  cases item with
  | task u =>
    obtain rfl := List.mem_singleton.1 ht
    exact (mem_items_task.1 hitem).2
  | stage s =>
    have hs := (mem_items_stage hc).1 hitem
    have hslug := List.mem_map_of_mem (f := (·.slug)) ht
    rw [map_slug_tasks hc hs] at hslug
    exact hc.stageOf?_eq_some hs hslug

/-- The stages of the tasks of an item: none, or one for each member. -/
theorem filterMap_stageOf_tasks (hc : logic.Consistent) {item : Item} (hitem : item ∈ items logic) :
    (item.tasks logic).filterMap (fun t => (logic.stageOf? t.slug).map (·.slug)) =
      item.stage?.toList.flatMap fun s => s.members.map fun _ => s.slug := by
  have hcongr : (item.tasks logic).filterMap (fun t => (logic.stageOf? t.slug).map (·.slug)) =
      (item.tasks logic).filterMap fun _ => item.stage?.map (·.slug) :=
    List.filterMap_congr fun t ht => by rw [stageOf?_of_mem_tasks hc hitem ht]
  rw [hcongr]
  cases item with
  | task u => rfl
  | stage s =>
    have hslugs := map_slug_tasks hc ((mem_items_stage hc).1 hitem)
    show ((Item.stage s).tasks logic).filterMap (fun _ => some s.slug) =
      (s.members.map fun _ => s.slug) ++ []
    rw [List.filterMap_eq_map', List.append_nil, ← hslugs, List.map_map]
    rfl

/-- Of blocks of equal values, with a value of its own for each block, one of each is kept. -/
theorem eraseDups_flatMap_map_const {ι β γ : Type} [BEq γ] [LawfulBEq γ] {key : ι → γ}
    {block : ι → List β} {is : List ι} (hne : ∀ i ∈ is, block i ≠ []) (hnd : (is.map key).Nodup) :
    (is.flatMap fun i => (block i).map fun _ => key i).eraseDups = is.map key := by
  induction is with
  | nil => rfl
  | cons i is ih =>
    rw [List.map_cons, List.nodup_cons] at hnd
    obtain ⟨hfirst, hrest⟩ := List.forall_mem_cons.1 hne
    obtain ⟨m, ms, hms⟩ := List.exists_cons_of_ne_nil hfirst
    have hother : ∀ x ∈ is.flatMap fun i => (block i).map fun _ => key i, x ≠ key i := by
      rintro x hx rfl
      obtain ⟨j, hj, hx⟩ := List.mem_flatMap.1 hx
      obtain ⟨-, -, heq⟩ := List.mem_map.1 hx
      exact hnd.1 (heq ▸ List.mem_map_of_mem hj)
    rw [List.flatMap_cons, hms, List.map_cons, List.cons_append, List.eraseDups_cons,
      List.filter_append, List.filter_eq_nil_iff.2 (by simp), List.nil_append,
      List.filter_eq_self.2 (by simpa using hother), ih hrest hnd.2, List.map_cons]

/-- The stages of the tasks, in the order of a diagram and each once, are the stages in that
order. -/
theorem eraseDups_stageOf_inDiagramOrder (hc : logic.Consistent) :
    (logic.inDiagramOrder.filterMap fun t => (logic.stageOf? t.slug).map (·.slug)).eraseDups =
      logic.stagesInDiagramOrder.map (·.slug) := by
  have hnodup : (logic.stagesInDiagramOrder.map (·.slug)).Nodup :=
    ((perm_stagesInDiagramOrder hc).map _).nodup_iff.2 hc.nodup_stages
  have hblocks : (logic.inDiagramOrder.filterMap fun t => (logic.stageOf? t.slug).map (·.slug)) =
      logic.stagesInDiagramOrder.flatMap fun s => s.members.map fun _ => s.slug := by
    rw [inDiagramOrder, List.filterMap_flatMap, stagesInDiagramOrder,
      List.filterMap_eq_flatMap_toList, List.flatMap_assoc]
    exact List.flatMap_congr fun _ hitem => filterMap_stageOf_tasks hc hitem
  rw [hblocks]
  exact eraseDups_flatMap_map_const
    (fun s hs => (hc.stage s ((mem_stagesInDiagramOrder hc).1 hs)).members_ne_nil) hnodup

/-- The tasks of a stage come as they stand in it. -/
theorem filter_inDiagramOrder (hc : logic.Consistent) {s : Stage} (hs : s ∈ logic.stages) :
    logic.inDiagramOrder.filter (fun t => (logic.stageOf? t.slug).map (·.slug) = some s.slug) =
      (Item.stage s).tasks logic := by
  have hitem := (mem_items_stage hc).2 hs
  have hself : ((Item.stage s).tasks logic).filter
      (fun t => (logic.stageOf? t.slug).map (·.slug) = some s.slug) = (Item.stage s).tasks logic := by
    rw [List.filter_eq_self]
    intro t ht
    rw [stageOf?_of_mem_tasks hc hitem ht]
    exact decide_eq_true rfl
  rw [inDiagramOrder, List.filter_flatMap, flatMap_eq_of_mem (nodup_items hc) hitem, hself]
  intro item hother hne
  rw [List.filter_eq_nil_iff]
  intro t ht
  rw [stageOf?_of_mem_tasks hc hother ht, decide_eq_true_eq]
  intro h
  obtain ⟨s', hs', hslug⟩ := Option.map_eq_some_iff.1 h
  cases item with
  | task u => exact absurd hs' (by simp [Item.stage?])
  | stage s'' =>
    obtain rfl := Option.some.inj hs'
    have hmem := (mem_items_stage hc).1 hother
    exact hne (congrArg _ (List.inj_on_of_nodup_map hc.nodup_stages hmem hs hslug))

end Logic

/-! ## Diagrams -/

namespace Diagram

variable {α : Type} {logic : Logic} {d : Diagram α}

/-- The nodes of all stages, in order. -/
def stageNodes (d : Diagram α) : List (Node α) := d.nodes.filter (·.kind = .stage)

theorem map_slug_taskNodes (hd : d.Depicts logic) (hc : logic.Consistent) :
    d.taskNodes.map (·.slug) = logic.inDiagramOrder.map (·.slug) := by
  have hitems : ∀ item ∈ items logic, item.kind = .stage →
      (item.tasks logic).map (·.slug) = item.members := by
    intro item hitem hk
    cases item with
    | task t => exact absurd hk (by simp [Item.kind])
    | stage s => exact Logic.map_slug_tasks hc ((mem_items_stage hc).1 hitem)
  unfold Depicts at hd
  rw [taskNodes, Logic.inDiagramOrder]
  generalize items logic = is, d.nodes = ns at hd hitems
  induction hd with
  | nil => rfl
  | @cons item n is ns h _ ih =>
    rw [List.flatMap_cons, List.flatMap_cons, List.map_append, List.map_append,
      ih fun i hi => hitems i (by simp [hi]), h.kind]
    congr 1
    cases item with
    | task t => exact congrArg ([·]) h.slug
    | stage s =>
      rw [hitems _ (by simp) rfl]
      exact map_slug_of_showsMember h.children

theorem map_slug_stageNodes (hd : d.Depicts logic) :
    d.stageNodes.map (·.slug) = logic.stagesInDiagramOrder.map (·.slug) := by
  unfold Depicts at hd
  rw [stageNodes, Logic.stagesInDiagramOrder]
  generalize items logic = is, d.nodes = ns at hd
  induction hd with
  | nil => rfl
  | @cons item n is ns h _ ih =>
    have hkind : n.kind = item.kind := h.kind
    have hslug : n.slug = item.slug := h.slug
    cases item with
    | task t =>
      rw [List.filter_cons_of_neg (by simp [hkind, Item.kind]), List.filterMap_cons_none rfl, ih]
    | stage s =>
      have hcons : (Item.stage s :: is).filterMap Item.stage? = s :: is.filterMap Item.stage? := rfl
      rw [List.filter_cons_of_pos (by simp [hkind, Item.kind]), hcons, List.map_cons, List.map_cons, ih,
        hslug]
      rfl

end Diagram

end CasePlan
