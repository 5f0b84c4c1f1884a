import CasePlan.Proofs.Sentry.Separation

/-!
# Lines pass by other tasks

In an alternating layout no line runs through a task other than the one that it comes from and the
one that it leads to.  Two nodes of which none is in the other share no column and no row there, and
every segment of a line stays in the columns or in the rows of its source or of its target.

* `Point.Between`, `Box.Aside`: points of a segment, and segments on one side of a box.
* `Box.Beside.aside`, `Box.Stacked.aside`: what stays in the columns or rows of one task passes by
  another; `aside_left`, `aside_top`: so does what stays near the left or top edge of any node.
* `Edge.Runs.aside`: the segments of lines that run in one of the four ways.
* `Diagram.KeepsClear`, `layOut_keepsClear`: the statement about whole diagrams.
-/

namespace CasePlan

open Routing

/-! ## Segments -/

/-- A point lies on the segment between two points. -/
def Point.Between (p a b : Point Rat) : Prop :=
  ∃ u : Rat, 0 ≤ u ∧ u ≤ 1 ∧ p.x = a.x + u * (b.x - a.x) ∧ p.y = a.y + u * (b.y - a.y)

/-- Two points lie on one side of a box. -/
def Box.Aside (t : Box Rat) (a b : Point Rat) : Prop :=
  (a.x ≤ t.x ∧ b.x ≤ t.x) ∨ (t.x + t.width ≤ a.x ∧ t.x + t.width ≤ b.x) ∨
    (a.y ≤ t.y ∧ b.y ≤ t.y) ∨ (t.y + t.height ≤ a.y ∧ t.y + t.height ≤ b.y)

/-- What lies between two numbers lies on the side of a bound that both are on. -/
theorem between_le {a b u c : Rat} (h0 : 0 ≤ u) (h1 : u ≤ 1) (ha : a ≤ c) (hb : b ≤ c) :
    a + u * (b - a) ≤ c := by
  nlinarith [mul_nonneg h0 (sub_nonneg.2 hb), mul_nonneg (sub_nonneg.2 h1) (sub_nonneg.2 ha)]

theorem le_between {a b u c : Rat} (h0 : 0 ≤ u) (h1 : u ≤ 1) (ha : c ≤ a) (hb : c ≤ b) :
    c ≤ a + u * (b - a) := by
  nlinarith [mul_nonneg h0 (sub_nonneg.2 hb), mul_nonneg (sub_nonneg.2 h1) (sub_nonneg.2 ha)]

/-- A segment on one side of a box does not pass through it. -/
theorem Box.Aside.not_encloses {t : Box Rat} {a b p : Point Rat} (h : t.Aside a b)
    (hp : p.Between a b) : ¬t.Encloses p := by
  obtain ⟨u, h0, h1, hx, hy⟩ := hp
  rintro ⟨hl, hr, ht, hb⟩
  rcases h with ⟨ha, hb'⟩ | ⟨ha, hb'⟩ | ⟨ha, hb'⟩ | ⟨ha, hb'⟩
  · exact absurd (between_le h0 h1 ha hb') (not_le.2 (hx ▸ hl))
  · exact absurd (le_between h0 h1 ha hb') (not_le.2 (hx ▸ hr))
  · exact absurd (between_le h0 h1 ha hb') (not_le.2 (hy ▸ ht))
  · exact absurd (le_between h0 h1 ha hb') (not_le.2 (hy ▸ hb))

/-- An upright segment in the columns of a box, or near them, passes by what shares no column. -/
theorem Box.Beside.aside {k t : Box Rat} (h : k.Beside t 50) {a b : Point Rat} (heq : a.x = b.x)
    (hl : k.x - 50 ≤ a.x) (hr : a.x ≤ k.x + k.width + 50) : t.Aside a b := by
  rcases h with h | h
  · exact .inl ⟨by linarith, by linarith⟩
  · exact .inr (.inl ⟨by linarith, by linarith⟩)

/-- A level segment in the rows of a box, or near them, passes by what shares no row. -/
theorem Box.Stacked.aside {k t : Box Rat} (h : k.Stacked t 50) {a b : Point Rat} (heq : a.y = b.y)
    (ht : k.y - 50 ≤ a.y) (hb : a.y ≤ k.y + k.height + 50) : t.Aside a b := by
  rcases h with h | h
  · exact .inr (.inr (.inl ⟨by linarith, by linarith⟩))
  · exact .inr (.inr (.inr ⟨by linarith, by linarith⟩))

/-! ## Other tasks -/

variable {logic : Logic} {d : Diagram Rat} {k n t : Node Rat} {a b : Point Rat}

/-- A task that is not a given node: nothing is in it. -/
structure Diagram.IsOther (d : Diagram Rat) (k t : Node Rat) : Prop where
  /-- It stands in the diagram. -/
  mem : t ∈ d.inOrder
  /-- Nothing is in it. -/
  leaf : t.children = []
  /-- It is not the node. -/
  ne : k ≠ t

namespace Diagram.IsOther

/-- A task shares no column and no row with another node, or it is in that node. -/
theorem staggered_or_holds (h : d.IsOther k t) (hband : d.Banded) (hk : k ∈ d.inOrder) :
    k.box.Staggered t.box 50 ∨ k.Holds t := by
  rcases forall_of_pairwise hband hk h.mem h.ne with hkt | htk | htk
  · exact hkt
  · exact .inl htk.symm
  · exact absurd htk.child (by simp [h.leaf])

/-- Two tasks share no column and no row. -/
theorem staggered (h : d.IsOther k t) (hband : d.Banded) (hk : d.HasTask k) :
    k.box.Staggered t.box 50 := by
  rcases h.staggered_or_holds hband hk.mem with hkt | hkt
  · exact hkt
  · exact absurd hkt.child (by simp [hk.leaf])

/-- An upright segment near the left edge of a node passes by the tasks in it, and by all others. -/
theorem aside_left (h : d.IsOther k t) (hband : d.Banded) (hk : k ∈ d.inOrder)
    (hw : 0 ≤ k.box.width) (ha : a.x = k.box.x) (hb : b.x = k.box.x) : t.box.Aside a b := by
  rcases h.staggered_or_holds hband hk with hkt | hkt
  · exact hkt.1.aside (by linarith) (by linarith) (by linarith)
  · have hin := hkt.inside.left
    simp only [Box.grow] at hin
    exact .inl ⟨by linarith, by linarith⟩

/-- A level segment just below the top edge of a node passes by the tasks in it, and by all
others. -/
theorem aside_top (h : d.IsOther k t) (hband : d.Banded) (hk : k ∈ d.inOrder)
    (hh : 0 ≤ k.box.height) (ha : a.y = k.box.y + 10) (hb : b.y = k.box.y + 10) :
    t.box.Aside a b := by
  rcases h.staggered_or_holds hband hk with hkt | hkt
  · exact hkt.2.aside (by linarith) (by linarith) (by linarith)
  · have hin := hkt.inside.top
    simp only [Box.grow] at hin
    exact .inr (.inr (.inl ⟨by linarith, by linarith⟩))

end Diagram.IsOther

/-! ## Lines -/

/-- Every segment of a line passes by every task other than its ends. -/
theorem Edge.Runs.aside (hroom : d.Roomy) (hband : d.Banded) {s : Sentry Rat} {e : Edge Rat}
    (he : e.Runs d n s) (hn : n ∈ d.inOrder) (hs : s.SitsOn n.box) (ht : d.IsOther n t)
    (hsource : ∀ m, d.HasTask m → e.event = .complete → e.source = m.slug → d.IsOther m t) :
    ∀ segment ∈ e.segments, t.box.Aside segment.1 segment.2 := by
  obtain ⟨hw, hh⟩ := hroom.size n hn
  obtain ⟨hleft, hright, htop, hbottom⟩ := (hs.onBorder hw hh).1
  cases he with
  | start c hc hmember event source anchor waypoints _ _ =>
    have hfirst : t.box.Aside ⟨c.origin.x + 8, c.origin.y + 10⟩ ⟨s.anchor.x, c.origin.y + 10⟩ := by
      rcases Diagram.mem_containers hc with rfl | ⟨m, hm, rfl⟩
      · -- the main stage leaves room above all nodes
        have hmain := (hroom.main t ht.mem).top
        simp only [Box.grow, Diagram.mainBox] at hmain
        exact .inr (.inr (.inl ⟨by simp only; linarith, by simp only; linarith⟩))
      · have hm : m ∈ d.inOrder := Diagram.mem_inOrder.2 (.inl hm)
        have hother : d.IsOther m t :=
          ⟨ht.mem, ht.leaf, fun h => absurd hmember (by simp [h, ht.leaf])⟩
        obtain ⟨-, hh⟩ := hroom.size m hm
        exact hother.aside_top hband hm (by linarith) rfl rfl
    have hsecond : t.box.Aside ⟨s.anchor.x, c.origin.y + 10⟩ s.anchor := by
      refine ht.aside_left hband hn (by linarith) ?_ ?_ <;> rw [anchor] <;> rfl
    simpa [Edge.segments, waypoints] using ⟨hfirst, hsecond⟩
  | across m p leaves task waypoints _ =>
    have hother := hsource m leaves.task leaves.event leaves.source
    obtain ⟨-, -, hp, hp'⟩ := leaves.border.1
    have hfirst : t.box.Aside p ⟨s.anchor.x, p.y⟩ :=
      (hother.staggered hband leaves.task).2.aside rfl (by linarith) (by linarith)
    have hsecond : t.box.Aside ⟨s.anchor.x, p.y⟩ s.anchor :=
      (ht.staggered hband task).1.aside rfl (by simp only; linarith) (by simp only; linarith)
    simpa [Edge.segments, waypoints] using ⟨hfirst, hsecond⟩
  | along m p leaves task waypoints _ =>
    have hother := hsource m leaves.task leaves.event leaves.source
    obtain ⟨hp, hp', -, -⟩ := leaves.border.1
    have hfirst : t.box.Aside p ⟨p.x, s.anchor.y⟩ :=
      (hother.staggered hband leaves.task).1.aside rfl (by linarith) (by linarith)
    have hsecond : t.box.Aside ⟨p.x, s.anchor.y⟩ s.anchor :=
      (ht.staggered hband task).2.aside rfl (by simp only; linarith) (by simp only; linarith)
    simpa [Edge.segments, waypoints] using ⟨hfirst, hsecond⟩
  | around p leaves right top waypoints _ =>
    have hstaggered := ht.staggered hband leaves.task
    obtain ⟨-, -, hp, hp'⟩ := leaves.border.1
    have hfirst : t.box.Aside p ⟨p.x + 20, p.y⟩ :=
      hstaggered.2.aside rfl (by linarith) (by linarith)
    have hsecond : t.box.Aside ⟨p.x + 20, p.y⟩ ⟨p.x + 20, s.box.y⟩ :=
      hstaggered.1.aside rfl (by simp only; linarith) (by simp only; linarith)
    have hthird : t.box.Aside ⟨p.x + 20, s.box.y⟩ ⟨s.box.x + 7, s.box.y⟩ :=
      hstaggered.2.aside rfl (by simp only; linarith) (by simp only; linarith)
    simpa [Edge.segments, waypoints] using ⟨hfirst, hsecond, hthird⟩

/-! ## Whole diagrams -/

/-- No line runs through a task other than its source and its target. -/
def Diagram.KeepsClear (d : Diagram Rat) (sentries : List (Sentry Rat)) : Prop :=
  ∀ s ∈ sentries, ∀ e ∈ s.edges, ∀ segment ∈ e.segments, ∀ t ∈ d.taskNodes,
    t.slug ≠ e.target → (e.event = .complete → t.slug ≠ e.source) →
    ∀ p, p.Between segment.1 segment.2 → ¬t.box.Encloses p

/-- Lines keep clear of other tasks in a diagram with room in which two nodes share no column and no
row. -/
theorem keepsClear_of_banded (hd : d.Depicts logic) (hroom : d.Roomy) (hband : d.Banded)
    {routed : List (Text × List (Sentry Rat))}
    (hall : List.Forall₂ (fun n entry => entry.1 = n.slug ∧
      n.GuardedBy logic d entry.2 ∧ n.DrawnBy d entry.2) d.inOrder routed) :
    d.KeepsClear (routed.flatMap Prod.snd) := by
  intro s hs e he segment hsegment t ht htarget hsource p hp
  obtain ⟨entry, hentry, hs⟩ := List.mem_flatMap.1 hs
  obtain ⟨n, hn, -, hguard, hdrawn⟩ := exists_mem_left_of_forall₂ hall hentry
  obtain ⟨ht, hleaf⟩ := hd.of_mem_taskNodes ht
  have hother : d.IsOther n t :=
    ⟨ht, hleaf, fun heq => htarget (heq ▸ (hguard.target s hs e he).symm)⟩
  have haside := (hdrawn.runs s hs e he).aside hroom hband hn (hdrawn.sitsOn s hs) hother
    fun m _ hevent hslug => ⟨ht, hleaf, fun heq => hsource hevent (heq ▸ hslug.symm)⟩
  exact (haside segment hsegment).not_encloses hp

/-- In the alternating layout of an accepted description no line runs through a task other than its
source and its target. -/
theorem layOut_keepsClear {raw : Json} {logic : Logic} (h : Logic.parse raw = .ok logic) :
    ∃ d routed, layOut .alternating logic = .ok d ∧ route logic d = .ok routed ∧
      d.KeepsClear (routed.flatMap Prod.snd) := by
  have hc := consistent_of_parse h
  have hd := Layout.depicts_diagram .alternating logic
  have hroom := Layout.roomy_diagram hc .alternating
  obtain ⟨routed, hrouted, hall⟩ := route_drawn hd hc hroom
  exact ⟨_, routed, Layout.layOut_eq_ok hc .alternating, hrouted,
    keepsClear_of_banded hd hroom (Layout.banded_diagram logic) hall⟩

theorem layOut_keepsClear_crossing :
    Logic.parse Logic.crossingValue = .ok Logic.crossing ∧
      ∃ d routed, layOut .alternating Logic.crossing = .ok d ∧
        route Logic.crossing d = .ok routed ∧ d.KeepsClear (routed.flatMap Prod.snd) :=
  ⟨Logic.parse_crossingValue, layOut_keepsClear Logic.parse_crossingValue⟩

end CasePlan
