import CasePlan.Proofs.Sentry.Line

/-!
# Sentries are drawn apart

In both layouts every sentry sits on the border of its item and keeps apart from all other sentries
and from all other tasks, and everything that is drawn lies in the main stage.

* `Diagram.Roomy.clear_of_sitsOn`: sentries of two nodes keep apart, since one node is deep inside
  the other or there is a gap between them.
* `Diagram.Roomy.clear_task`, `covers_waypoint`: no sentry reaches into a task that is not its own,
  and no line leaves the main stage.
* `Diagram.DrawsApart`, `layOut_drawsApart`: the statement about whole diagrams.
-/

namespace CasePlan

open Routing

variable {logic : Logic} {d : Diagram Rat} {m n t : Node Rat} {s s' : Sentry Rat}

/-- The sentries of a diagram are drawn apart from each other and from all other tasks, each on its
item, and with their lines in the main stage. -/
structure Diagram.DrawsApart (d : Diagram Rat) (sentries : List (Sentry Rat)) : Prop where
  /-- All are of one size. -/
  size : ∀ s ∈ sentries, s.box.width = 14 ∧ s.box.height = 22
  /-- Their middles lie on the borders of their items. -/
  border : ∀ s ∈ sentries, ∃ n, d.find? s.owner = some n ∧ n.box.OnBorder s.anchor
  /-- No point lies inside two of them, and no two have one middle. -/
  apart : sentries.Pairwise fun s s' => s.box.Apart s'.box ∧ s.anchor ≠ s'.anchor
  /-- No point of them lies inside a task of another slug. -/
  tasks : ∀ s ∈ sentries, ∀ t ∈ d.taskNodes, t.slug ≠ s.owner →
    ∀ p, s.box.Covers p → ¬t.box.Encloses p
  /-- They lie in the main stage. -/
  main : ∀ s ∈ sentries, s.box.Within d.mainBox
  /-- So do the points of their lines. -/
  waypoints : ∀ s ∈ sentries, ∀ e ∈ s.edges, ∀ p ∈ e.waypoints, d.mainBox.Covers p

/-! ## Sentries of two nodes -/

namespace Diagram.Roomy

variable (hroom : d.Roomy)

include hroom

/-- A sentry stays near its node. -/
theorem within_grow (hn : n ∈ d.inOrder) (hs : s.SitsOn n.box) : s.box.Within (n.box.grow 11) :=
  hs.within_grow (hroom.size n hn).1 (hroom.size n hn).2

/-- Sentries of two nodes keep apart. -/
theorem clear_of_sitsOn (hm : m ∈ d.inOrder) (hn : n ∈ d.inOrder)
    (h : m.box.Clear n.box 50 ∨ m.Holds n) (hs : s.SitsOn m.box) (hs' : s'.SitsOn n.box) :
    s.box.Clear s'.box 28 := by
  have hin := hroom.within_grow hn hs'
  rcases h with h | h
  · exact (h.of_grow (hroom.within_grow hm hs) hin).mono (by norm_num)
  · have hclear := (hs.clear_inside h.inside).of_grow (Box.Within.refl s.box).grow_zero hin
    exact hclear.mono (by norm_num)

/-- A sentry keeps apart from every task that is not its node. -/
theorem clear_task (hn : n ∈ d.inOrder) (ht : t ∈ d.inOrder) (hne : n ≠ t) (hleaf : t.children = [])
    (hs : s.SitsOn n.box) : s.box.Clear t.box 39 := by
  have hclear : n.box.Clear t.box 50 ∨ n.Holds t := by
    rcases Diagram.forall_of_pairwise hroom.gap hn ht hne with h | h | h
    · exact h
    · exact .inl h.symm
    · exact absurd h.child (by simp [hleaf])
  rcases hclear with h | h
  · have hclear := h.of_grow (hroom.within_grow hn hs) (Box.Within.refl t.box).grow_zero
    exact hclear.mono (by norm_num)
  · exact hs.clear_inside h.inside

/-- A sentry lies in the main stage. -/
theorem within_main (hn : n ∈ d.inOrder) (hs : s.SitsOn n.box) : s.box.Within d.mainBox :=
  ((hroom.within_grow hn hs).trans (Box.grow_within_grow (by norm_num))).trans (hroom.main n hn)

end Diagram.Roomy

/-- Sentries that are clear of each other have different middles. -/
theorem Sentry.anchor_ne (h : s.box.Clear s'.box 0) (hs : s.box.width = 14 ∧ s.box.height = 22)
    (hs' : s'.box.width = 14 ∧ s'.box.height = 22) : s.anchor ≠ s'.anchor := by
  have hin : ∀ s : Sentry Rat, s.box.width = 14 ∧ s.box.height = 22 → s.box.Encloses s.anchor :=
    fun s ⟨hw, hh⟩ => encloses_anchorOf (by rw [hw]; norm_num) (by rw [hh]; norm_num)
  intro heq
  exact h.apart le_rfl s.anchor ⟨hin s hs, heq ▸ hin s' hs'⟩

/-! ## Lines -/

/-- A point level with one covered point and upright with another is covered. -/
theorem Box.Covers.mix {b : Box Rat} {p q : Point Rat} (hp : b.Covers p) (hq : b.Covers q) :
    b.Covers ⟨p.x, q.y⟩ :=
  ⟨hp.left, hp.right, hq.top, hq.bottom⟩

/-- A line that turns once between two covered points is covered. -/
theorem Box.Covers.turn {b : Box Rat} {p q : Point Rat} (hp : b.Covers p) (hq : b.Covers q) :
    (∀ r ∈ [p, ⟨q.x, p.y⟩, q], b.Covers r) ∧ ∀ r ∈ [p, ⟨p.x, q.y⟩, q], b.Covers r := by
  constructor
  · simpa using ⟨hp, hq.mix hp, hq⟩
  · simpa using ⟨hp, hp.mix hq, hq⟩

/-- Lines from a container begin in the main stage. -/
theorem Diagram.Roomy.covers_start (hroom : d.Roomy) {c : Container Rat} (hc : c ∈ d.containers)
    (hn : n ∈ d.inOrder) : d.mainBox.Covers ⟨c.origin.x + 8, c.origin.y + 10⟩ := by
  obtain ⟨hw, hh⟩ := hroom.size n hn
  obtain ⟨hl, ht, hr, hb⟩ := hroom.main n hn
  rcases Diagram.mem_containers hc with rfl | ⟨m, hm, rfl⟩
  · simp only [Box.grow, Diagram.mainBox] at hl ht hr hb
    constructor <;> simp only [Diagram.mainBox] <;> linarith
  · have hm : m ∈ d.inOrder := Diagram.mem_inOrder.2 (.inl hm)
    obtain ⟨hw, hh⟩ := hroom.size m hm
    refine ((Box.within_grow (by norm_num)).trans (hroom.main m hm)).covers ?_
    constructor <;> simp only [Box.topLeft] <;> linarith

/-- No line leaves the main stage. -/
theorem covers_waypoint (hroom : d.Roomy) (hn : n ∈ d.inOrder) (hs : s.SitsOn n.box) {e : Edge Rat}
    (he : e.Runs d n s) {p : Point Rat} (hp : p ∈ e.waypoints) : d.mainBox.Covers p := by
  have hnode : ∀ m ∈ d.inOrder, ∀ p, m.box.Covers p → d.mainBox.Covers p := fun m hm p hp =>
    ((Box.within_grow (by norm_num)).trans (hroom.main m hm)).covers hp
  obtain ⟨hw, hh⟩ := hroom.size n hn
  have hanchor : d.mainBox.Covers s.anchor := hnode n hn _ (hs.onBorder hw hh).1
  cases he with
  | start c hc _ _ _ _ waypoints _ _ =>
    exact ((hroom.covers_start hc hn).turn hanchor).1 p (waypoints ▸ hp)
  | across m q leaves _ waypoints _ =>
    have hstart := hnode m leaves.task.mem q leaves.border.1
    exact (hstart.turn hanchor).1 p (waypoints ▸ hp)
  | along m q leaves _ waypoints _ =>
    have hstart := hnode m leaves.task.mem q leaves.border.1
    exact (hstart.turn hanchor).2 p (waypoints ▸ hp)
  | around q leaves right top waypoints _ =>
    -- the line stays within the border of thirty around the node
    have hstart := leaves.border.1
    have houter : d.mainBox.Covers ⟨q.x + 20, q.y⟩ := by
      refine (hroom.main n hn).covers ?_
      obtain ⟨hl, hr, ht, hb⟩ := hstart
      constructor <;> simp only [Box.grow] <;> linarith
    have htop : d.mainBox.Covers ⟨s.box.x + 7, s.box.y⟩ := by
      refine (hroom.within_main hn hs).covers ?_
      obtain ⟨hw, hh⟩ := hs.size
      constructor <;> simp only <;> linarith
    rw [waypoints] at hp
    simp only [List.mem_cons, List.not_mem_nil, or_false] at hp
    rcases hp with rfl | rfl | rfl | rfl
    · exact hnode n hn _ hstart
    · exact houter
    · exact houter.mix htop
    · exact htop

/-! ## Whole diagrams -/

/-- The nodes of tasks stand in the diagram, and nothing is in them. -/
theorem Diagram.Depicts.of_mem_taskNodes (hd : d.Depicts logic) (ht : t ∈ d.taskNodes) :
    t ∈ d.inOrder ∧ t.children = [] := by
  obtain ⟨n, hn, ht⟩ := List.mem_flatMap.1 ht
  split at ht
  · next hkind =>
    obtain rfl := List.mem_singleton.1 ht
    refine ⟨Diagram.mem_inOrder.2 (.inl hn), ?_⟩
    obtain ⟨item, -, h⟩ := exists_mem_left_of_forall₂ hd hn
    cases item with
    | task u => exact List.forall₂_nil_left_iff.1 h.children
    | stage u => exact absurd (h.kind.symm.trans hkind) (by simp [Layout.Item.kind])
  · obtain ⟨member, h⟩ := hd.showsMember hn ht
    exact ⟨Diagram.mem_inOrder.2 (.inr ⟨n, hn, ht⟩), h.children⟩

/-- Pairs in the concatenation of lists come from one list or from two of them. -/
theorem pairwise_flatMap_of_forall₂ {β γ : Type} {R : β → β → Prop} {S : γ → γ → Prop}
    {Q : γ → List β → Prop} {xs : List γ} {yss : List (Text × List β)}
    (hall : List.Forall₂ (fun x entry => Q x entry.2) xs yss) (hpair : xs.Pairwise S)
    (hinner : ∀ x ys, Q x ys → ys.Pairwise R)
    (houter : ∀ x ys x' ys', S x x' → Q x ys → Q x' ys' → ∀ y ∈ ys, ∀ y' ∈ ys', R y y') :
    (yss.flatMap Prod.snd).Pairwise R := by
  induction hall with
  | nil => exact .nil
  | @cons x entry xs yss hx hall ih =>
    rw [List.pairwise_cons] at hpair
    rw [List.flatMap_cons]
    refine List.pairwise_append.2 ⟨hinner x _ hx, ih hpair.2, fun y hy y' hy' => ?_⟩
    obtain ⟨entry', hentry', hy'⟩ := List.mem_flatMap.1 hy'
    obtain ⟨x', hx', hq⟩ := exists_mem_left_of_forall₂ hall hentry'
    exact houter x _ x' _ (hpair.1 x' hx') hx hq y hy y' hy'

/-- The sentries of a diagram with room are drawn apart. -/
theorem drawsApart_of_roomy (hd : d.Depicts logic) (hc : logic.Consistent) (hroom : d.Roomy)
    {routed : List (Text × List (Sentry Rat))}
    (hall : List.Forall₂ (fun n entry => entry.1 = n.slug ∧
      n.GuardedBy logic d entry.2 ∧ n.DrawnBy d entry.2) d.inOrder routed) :
    d.DrawsApart (routed.flatMap Prod.snd) := by
  have hnode : ∀ s ∈ routed.flatMap Prod.snd, ∃ n ∈ d.inOrder,
      s.owner = n.slug ∧ s.SitsOn n.box ∧ ∀ e ∈ s.edges, e.Runs d n s := by
    intro s hs
    obtain ⟨entry, hentry, hs⟩ := List.mem_flatMap.1 hs
    obtain ⟨n, hn, -, hguard, hdrawn⟩ := exists_mem_left_of_forall₂ hall hentry
    exact ⟨n, hn, hguard.owner s hs, hdrawn.sitsOn s hs, hdrawn.runs s hs⟩
  have hclear : (routed.flatMap Prod.snd).Pairwise fun s s' => s.box.Clear s'.box 0 := by
    have hgap : d.inOrder.Pairwise fun m n =>
        m ∈ d.inOrder ∧ n ∈ d.inOrder ∧ (m.box.Clear n.box 50 ∨ m.Holds n) :=
      hroom.gap.imp_of_mem fun hm hn h => ⟨hm, hn, h⟩
    refine pairwise_flatMap_of_forall₂ (hall.imp fun _ _ h => h.2.2) hgap (fun _ _ h => h.clear) ?_
    rintro m sentries n sentries' ⟨hm, hn, h⟩ hdrawn hdrawn' s hs s' hs'
    exact (hroom.clear_of_sitsOn hm hn h (hdrawn.sitsOn s hs) (hdrawn'.sitsOn s' hs')).mono
      (by norm_num)
  refine ⟨?_, ?_, ?_, ?_, ?_, ?_⟩
  · intro s hs
    obtain ⟨n, -, -, hsits, -⟩ := hnode s hs
    exact hsits.size
  · intro s hs
    obtain ⟨n, hn, howner, hsits, -⟩ := hnode s hs
    obtain ⟨hw, hh⟩ := hroom.size n hn
    refine ⟨n, ?_, hsits.onBorder hw hh⟩
    rw [howner]
    exact hd.find?_of_mem hc (d.perm_inOrder.mem_iff.1 hn)
  · refine hclear.imp_of_mem fun {s s'} hs hs' h => ⟨h.apart le_rfl, ?_⟩
    obtain ⟨n, -, -, hsits, -⟩ := hnode s hs
    obtain ⟨n', -, -, hsits', -⟩ := hnode s' hs'
    exact Sentry.anchor_ne h hsits.size hsits'.size
  · intro s hs t ht hne p hp
    obtain ⟨n, hn, howner, hsits, -⟩ := hnode s hs
    obtain ⟨ht, hleaf⟩ := hd.of_mem_taskNodes ht
    have hnt : n ≠ t := fun h => hne (h ▸ howner.symm)
    exact (hroom.clear_task hn ht hnt hleaf hsits).not_encloses (by norm_num) hp
  · intro s hs
    obtain ⟨n, hn, -, hsits, -⟩ := hnode s hs
    exact hroom.within_main hn hsits
  · intro s hs e he p hp
    obtain ⟨n, hn, -, hsits, hruns⟩ := hnode s hs
    exact covers_waypoint hroom hn hsits (hruns e he) hp

/-- In both layouts of an accepted description sentries are drawn apart. -/
theorem layOut_drawsApart {raw : Json} {logic : Logic} (h : Logic.parse raw = .ok logic)
    (mode : LayoutMode) :
    ∃ d routed, layOut mode logic = .ok d ∧ route logic d = .ok routed ∧
      d.DrawsApart (routed.flatMap Prod.snd) := by
  have hc := consistent_of_parse h
  have hd := Layout.depicts_diagram mode logic
  have hroom := Layout.roomy_diagram hc mode
  obtain ⟨routed, hrouted, hall⟩ := route_drawn hd hc hroom
  exact ⟨_, routed, Layout.layOut_eq_ok hc mode, hrouted, drawsApart_of_roomy hd hc hroom hall⟩

theorem layOut_drawsApart_crossing :
    Logic.parse Logic.crossingValue = .ok Logic.crossing ∧
      ∃ d routed, layOut .grid Logic.crossing = .ok d ∧ route Logic.crossing d = .ok routed ∧
        d.DrawsApart (routed.flatMap Prod.snd) :=
  ⟨Logic.parse_crossingValue, layOut_drawsApart Logic.parse_crossingValue .grid⟩

end CasePlan
