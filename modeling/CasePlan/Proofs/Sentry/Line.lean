import CasePlan.Proofs.Sentry.Border

/-!
# Lines to sentries

Every line to a sentry runs in one of four ways: from the corner of the container across and then
down, from the side of another task across and then up or down, from its top or bottom edge up or
down and then across, or from the item around its own corner.

* `Edge.Runs`: these four ways, with all that a line is made of.
* `runs_startSentry`, `runs_singleSentry`, `runs_sharedSentry`, `runs_loopSentry`: each kind of
  sentry has lines of its way.
* `Node.DrawnBy`, `route_drawn`: what routing gives for the items of a diagram with room.
* `Edge.Attached`, `layOut_attached`: lines turn at right angles, begin where their source docker says
  and end where their target docker says.
-/

namespace CasePlan

/-! ## The ways of lines -/

/-- A point moved by the coordinates of another. -/
def Point.shift (o p : Point Rat) : Point Rat := ⟨o.x + p.x, o.y + p.y⟩

theorem Point.shift_seenFrom (o p : Point Rat) : o.shift (Routing.seenFrom o p) = p := by
  show (⟨o.x + (p.x - o.x), o.y + (p.y - o.y)⟩ : Point Rat) = p
  rw [add_sub_cancel, add_sub_cancel]

theorem Box.Covers.onBorder {b : Box Rat} {p : Point Rat} (h : b.Covers p)
    (hside : p.x = b.x ∨ p.x = b.x + b.width ∨ p.y = b.y ∨ p.y = b.y + b.height) :
    b.OnBorder p := by
  refine ⟨h, fun ⟨hl, hr, ht, hb⟩ => ?_⟩
  rcases hside with h | h | h | h <;> linarith

/-- A node is a task of a diagram that is found by its slug. -/
structure Diagram.HasTask (d : Diagram Rat) (m : Node Rat) : Prop where
  /-- It is found. -/
  find : d.find? m.slug = some m
  /-- It stands in the diagram. -/
  mem : m ∈ d.inOrder
  /-- Nothing is in it. -/
  leaf : m.children = []

/-- A line begins at a point on the border of a task, which it waits for. -/
structure Edge.Leaves (d : Diagram Rat) (m : Node Rat) (p : Point Rat) (e : Edge Rat) : Prop where
  /-- It waits for the completion of the task. -/
  event : e.event = .complete
  /-- It names the task. -/
  source : e.source = m.slug
  /-- The diagram has the task. -/
  task : d.HasTask m
  /-- The point lies on its border. -/
  border : m.box.OnBorder p
  /-- The docker is the point as seen from the corner of the task. -/
  docker : e.sourceDocker = Routing.seenFrom m.box.topLeft p

/-- The ways in which lines run to a sentry of a node. -/
inductive Edge.Runs (d : Diagram Rat) (n : Node Rat) (s : Sentry Rat) (e : Edge Rat) : Prop
  /-- From the corner of the container across and then down to the corner of the node. -/
  | start (c : Container Rat) (mem : c ∈ d.containers) (member : n ∈ c.members)
      (event : e.event = .start) (source : e.source = c.slug) (anchor : s.anchor = n.box.topLeft)
      (waypoints : e.waypoints =
        [⟨c.origin.x + 8, c.origin.y + 10⟩, ⟨s.anchor.x, c.origin.y + 10⟩, s.anchor])
      (sourceDocker : e.sourceDocker = ⟨8, 10⟩) (targetDocker : e.targetDocker = ⟨7, 11⟩)
  /-- From the side of a task across and then up or down. -/
  | across (m : Node Rat) (p : Point Rat) (leaves : e.Leaves d m p) (task : d.HasTask n)
      (waypoints : e.waypoints = [p, ⟨s.anchor.x, p.y⟩, s.anchor])
      (targetDocker : e.targetDocker = ⟨7, 11⟩)
  /-- From the top or bottom edge of a task up or down and then across. -/
  | along (m : Node Rat) (p : Point Rat) (leaves : e.Leaves d m p) (task : d.HasTask n)
      (waypoints : e.waypoints = [p, ⟨p.x, s.anchor.y⟩, s.anchor])
      (targetDocker : e.targetDocker = ⟨7, 11⟩)
  /-- From the right side of the node around its corner to the top of the sentry. -/
  | around (p : Point Rat) (leaves : e.Leaves d n p) (right : p.x = n.box.x + n.box.width)
      (top : s.box.y = n.box.y - 11)
      (waypoints : e.waypoints =
        [p, ⟨p.x + 20, p.y⟩, ⟨p.x + 20, s.box.y⟩, ⟨s.box.x + 7, s.box.y⟩])
      (targetDocker : e.targetDocker = ⟨7, 0⟩)

/-! ## The lines that are made -/

namespace Routing

variable {d : Diagram Rat} {n m : Node Rat}

theorem leaves_edge (hm : d.HasTask m) {p : Point Rat} (hp : m.box.OnBorder p)
    (waypoints : List (Point Rat)) (targetDocker : Point Rat) :
    (edge m n waypoints p targetDocker).Leaves d m p :=
  ⟨rfl, rfl, hm, hp, rfl⟩

theorem runs_startSentry {c : Container Rat} (hc : c ∈ d.containers) (hn : n ∈ c.members)
    (index : Nat) : ∀ e ∈ (startSentry n c.slug c.origin index).edges,
      e.Runs d n (startSentry n c.slug c.origin index) := by
  intro e he
  obtain rfl := List.mem_singleton.1 he
  refine .start c hc hn rfl rfl ?_ rfl rfl rfl
  show (⟨n.box.x - 7 + 14 / 2, n.box.y - 11 + 22 / 2⟩ : Point Rat) = ⟨n.box.x, n.box.y⟩
  norm_num

theorem runs_singleSentry (hn : d.HasTask n) (hm : d.HasTask m) (hw : 0 ≤ m.box.width)
    (hh : 0 ≤ m.box.height) (counts : SideCounts) (index : Nat) (condition : Text) :
    ∀ e ∈ (singleSentry n m counts index condition).1.edges,
      e.Runs d n (singleSentry n m counts index condition).1 := by
  -- the line leaves the task on its left or right side, a quarter of the height from an end
  have hborder : ∀ isLeft isTop : Bool, m.box.OnBorder
      ⟨if isLeft then m.box.x + m.box.width else m.box.x,
        if isTop then m.box.y + m.box.height * 3 / 4 else m.box.y + m.box.height / 4⟩ := by
    intro isLeft isTop
    refine Box.Covers.onBorder ?_ ?_
    · cases isLeft <;> cases isTop <;> constructor <;> simp <;> linarith
    · cases isLeft
      · exact .inl rfl
      · exact .inr (.inl rfl)
  have hborder := hborder (Quadrant.of m.box n.box).isLeft (Quadrant.of m.box n.box).isTop
  intro e he
  simp only [singleSentry] at he ⊢
  cases htop : (Quadrant.of m.box n.box).isTop <;> rw [htop] at he hborder <;>
    obtain rfl := List.mem_singleton.1 he <;>
    exact .across m _ (leaves_edge hm hborder _ _) hn rfl rfl

theorem runs_sharedSentry (hn : d.HasTask n) {sources : List (Node Rat)} (hsources : ∀ m ∈ sources,
      d.HasTask m ∧ 0 ≤ m.box.width ∧ 0 ≤ m.box.height) (counts : SideCounts) (index : Nat)
    (condition : Text) :
    ∀ e ∈ (sharedSentry n sources counts index condition).1.edges,
      e.Runs d n (sharedSentry n sources counts index condition).1 := by
  -- each line leaves its task on the top or bottom edge, a quarter of the width from the left
  have hborder : ∀ m ∈ sources, ∀ isTop : Bool, m.box.OnBorder
      ⟨m.box.x + m.box.width / 4, if isTop then m.box.y + m.box.height else m.box.y⟩ := by
    intro m hm isTop
    obtain ⟨-, hw, hh⟩ := hsources m hm
    refine Box.Covers.onBorder ?_ ?_
    · cases isTop <;> constructor <;> simp <;> linarith
    · cases isTop
      · exact .inr (.inr (.inl rfl))
      · exact .inr (.inr (.inr rfl))
  intro e he
  simp only [sharedSentry] at he ⊢
  cases hleft : (Quadrant.vote (sources.map fun s => Quadrant.of s.box n.box)).isLeft <;>
    rw [hleft] at he <;> obtain ⟨m, hm, rfl⟩ := List.mem_map.1 he <;>
    exact .along m _ (leaves_edge (hsources m hm).1 (hborder m hm _) _ _) hn rfl rfl

theorem runs_loopSentry (hn : d.HasTask n) (hw : 0 ≤ n.box.width) (hh : 0 ≤ n.box.height)
    (counts : SideCounts) (index : Nat) (condition : Text) :
    ∀ e ∈ (loopSentry n counts index condition).edges,
      e.Runs d n (loopSentry n counts index condition) := by
  have hborder : n.box.OnBorder ⟨n.box.x + n.box.width, n.box.y + n.box.height / 4⟩ := by
    refine Box.Covers.onBorder ?_ (.inr (.inl rfl))
    constructor <;> simp only <;> linarith
  intro e he
  obtain rfl := List.mem_singleton.1 he
  exact .around _ (leaves_edge hn hborder _ _) rfl rfl rfl rfl

/-- Lines to the sentries of a node run in one of the four ways. -/
theorem runs_nodeSentries {waits : Bool} {c : Container Rat} {external loops : List Transition}
    {sources : List (Node Rat)} (hc : c ∈ d.containers) (hn : n ∈ c.members)
    (hsources : ∀ m ∈ sources, d.HasTask m ∧ 0 ≤ m.box.width ∧ 0 ≤ m.box.height)
    (htask : sources ≠ [] ∨ loops ≠ [] → d.HasTask n) (hw : 0 ≤ n.box.width) (hh : 0 ≤ n.box.height) :
    ∀ s ∈ nodeSentries n waits c external loops sources, ∀ e ∈ s.edges, e.Runs d n s := by
  intro s hs
  cases made_of_mem_nodeSentries hs with
  | start => exact runs_startSentry hc hn 0
  | single index condition hmem =>
    obtain ⟨hm, hw, hh⟩ := hsources _ hmem
    exact runs_singleSentry (htask (.inl (List.ne_nil_of_mem hmem))) hm hw hh _ _ _
  | several index condition hne => exact runs_sharedSentry (htask (.inl hne)) hsources _ _ _
  | loop counts index condition hne _ => exact runs_loopSentry (htask (.inr hne)) hw hh _ _ _

end Routing

/-! ## Routing a diagram -/

open Routing

variable {logic : Logic} {d : Diagram Rat}

/-- The containers are the main stage and the stages with tasks. -/
theorem Diagram.mem_containers {c : Container Rat} (h : c ∈ d.containers) :
    c = ⟨rootContainer, ⟨40, 50⟩, d.nodes⟩ ∨
      ∃ m ∈ d.nodes, c = ⟨m.slug, m.box.topLeft, m.children⟩ := by
  rcases List.mem_cons.1 h with rfl | h
  · exact .inl rfl
  · obtain ⟨m, hm, rfl⟩ := List.mem_map.1 h
    exact .inr ⟨m, List.mem_of_mem_filter hm, rfl⟩

/-- A node with the slug of a task is its node. -/
theorem Diagram.Depicts.hasTask (hd : d.Depicts logic) (hc : logic.Consistent) {n : Node Rat}
    (hn : n ∈ d.inOrder) (hslug : n.slug ∈ logic.slugs) : d.HasTask n := by
  refine ⟨hd.find?_of_mem hc (d.perm_inOrder.mem_iff.1 hn), hn, ?_⟩
  rcases hd.shows_of_mem hc hn with ⟨s, hs, h⟩ | ⟨t, -, h⟩
  · exact absurd (h.slug ▸ hslug) (hc.stage s hs).slug_notMem
  · exact h.children

/-- Every node that leads to another is a task. -/
theorem hasTask_of_mem_sourceNodes (hd : d.Depicts logic) (hc : logic.Consistent) {n m : Node Rat}
    (hm : m ∈ sourceNodes logic d n) : d.HasTask m := by
  obtain ⟨slug, hmem, hfind, rfl⟩ := exists_mem_left_of_forall₂ (forall₂_sourceNodes hd hc n) hm
  rw [sourcesOf, List.mem_eraseDups, List.mem_map] at hmem
  obtain ⟨t, ht, hsource⟩ := hmem
  have hin : m ∈ d.entries := by simpa using List.mem_of_find?_eq_some hfind
  refine hd.hasTask hc (d.perm_inOrder.mem_iff.2 hin) ?_
  rw [← hsource]
  exact (hc.ends_mem_slugs (Logic.mem_external.1 ht).1).1

/-- How the sentries of a node are drawn. -/
structure Node.DrawnBy (d : Diagram Rat) (n : Node Rat) (sentries : List (Sentry Rat)) : Prop where
  /-- They sit on its border. -/
  sitsOn : ∀ s ∈ sentries, s.SitsOn n.box
  /-- They do not overlap. -/
  clear : sentries.Pairwise fun s s' => s.box.Clear s'.box 0
  /-- Their lines run in one of the four ways. -/
  runs : ∀ s ∈ sentries, ∀ e ∈ s.edges, e.Runs d n s

theorem sentriesAt_drawn (hd : d.Depicts logic) (hc : logic.Consistent) (hroom : d.Roomy)
    {c : Container Rat} (hmem : c ∈ d.containers) {n : Node Rat} {place : Nat}
    (hn : (n, place) ∈ c.members.zipIdx) : n.DrawnBy d (sentriesAt logic d c place n) := by
  have hn : n ∈ c.members := List.fst_mem_of_mem_zipIdx hn
  have hin := Diagram.mem_inOrder_iff_mem_members.2 ⟨c, hmem, hn⟩
  have hsize : ∀ m ∈ d.inOrder, 0 ≤ m.box.width ∧ 0 ≤ m.box.height := by
    intro m hm
    obtain ⟨hw, hh⟩ := hroom.size m hm
    exact ⟨by linarith, by linarith⟩
  obtain ⟨hw, hh⟩ := hroom.size n hin
  refine ⟨fun s hs => (made_of_mem_nodeSentries hs).sitsOn, clear_nodeSentries hw hh .., ?_⟩
  refine runs_nodeSentries hmem hn (fun m hm => ?_) (fun hne => ?_) (hsize n hin).1 (hsize n hin).2
  · have htask := hasTask_of_mem_sourceNodes hd hc hm
    exact ⟨htask, hsize m htask.mem⟩
  · have htarget : ∃ t ∈ logic.transitions, t.target = n.slug := by
      rcases hne with hne | hne
      · have hexternal : logic.external n.slug ≠ [] := by
          intro h
          exact hne (by simp [sourceNodes, sourcesOf, h])
        obtain ⟨t, ht, htarget, -⟩ := Logic.external_ne_nil_iff.1 hexternal
        exact ⟨t, ht, htarget⟩
      · obtain ⟨t, ht, htarget, -⟩ := Logic.loops_ne_nil_iff.1 hne
        exact ⟨t, ht, htarget⟩
    obtain ⟨t, ht, htarget⟩ := htarget
    exact hd.hasTask hc hin (htarget ▸ (hc.ends_mem_slugs ht).2)

/-- Routing a diagram with room gives every node, in order, sentries that are drawn on it. -/
theorem route_drawn (hd : d.Depicts logic) (hc : logic.Consistent) (hroom : d.Roomy) :
    ∃ routed, route logic d = .ok routed ∧
      List.Forall₂ (fun n entry => entry.1 = n.slug ∧
        n.GuardedBy logic d entry.2 ∧ n.DrawnBy d entry.2) d.inOrder routed :=
  ⟨_, route_eq_ok hd hc,
    forall₂_routed (P := fun n sentries => n.GuardedBy logic d sentries ∧ n.DrawnBy d sentries)
      fun _ hmem _ _ hn =>
        ⟨sentriesAt_guarded hd hc hmem hn, sentriesAt_drawn hd hc hroom hmem hn⟩⟩

/-! ## Dockers -/

/-- The segments of a line. -/
def Edge.segments {α : Type} (e : Edge α) : List (Point α × Point α) :=
  e.waypoints.zip e.waypoints.tail

/-- A line to a sentry of a node agrees with its dockers and with what it joins. -/
structure Edge.Attached (d : Diagram Rat) (n : Node Rat) (s : Sentry Rat) (e : Edge Rat) :
    Prop where
  /-- It has three or four points. -/
  count : e.waypoints.length = 3 ∨ e.waypoints.length = 4
  /-- It runs upright or level. -/
  straight : ∀ segment ∈ e.segments, segment.1.x = segment.2.x ∨ segment.1.y = segment.2.y
  /-- From a container it begins where the docker says, as seen from the corner of the main stage
  or of the stage that the node is in. -/
  start : e.event = .start →
    (n ∈ d.nodes ∧ e.source = rootContainer ∧
      e.waypoints.head? = some (Point.shift ⟨40, 50⟩ e.sourceDocker)) ∨
    ∃ m ∈ d.nodes, n ∈ m.children ∧ e.source = m.slug ∧
      e.waypoints.head? = some (m.box.topLeft.shift e.sourceDocker)
  /-- From a task it begins where the docker says, as seen from the corner of the task, which is a
  point on its border. -/
  complete : e.event = .complete → ∃ m, d.find? e.source = some m ∧
    e.waypoints.head? = some (m.box.topLeft.shift e.sourceDocker) ∧
    m.box.OnBorder (m.box.topLeft.shift e.sourceDocker)
  /-- It ends where the other docker says, as seen from the corner of the sentry. -/
  finish : e.waypoints.getLast? = some (s.box.topLeft.shift e.targetDocker)

/-- The middle of a sentry is where most lines meet it. -/
theorem Sentry.SitsOn.shift_eq_anchor {b : Box Rat} {s : Sentry Rat} (h : s.SitsOn b) :
    s.box.topLeft.shift ⟨7, 11⟩ = s.anchor := by
  obtain ⟨hw, hh⟩ := h.size
  rw [Sentry.anchor, Sentry.anchorOf_eq, hw, hh, Point.shift, Box.topLeft]
  norm_num

theorem Edge.Leaves.complete {m : Node Rat} {p : Point Rat} {e : Edge Rat} (h : e.Leaves d m p)
    (hhead : e.waypoints.head? = some p) :
    e.event = .complete → ∃ m, d.find? e.source = some m ∧
      e.waypoints.head? = some (m.box.topLeft.shift e.sourceDocker) ∧
      m.box.OnBorder (m.box.topLeft.shift e.sourceDocker) := by
  intro _
  refine ⟨m, h.source ▸ h.task.find, ?_, ?_⟩
  · rw [h.docker, Point.shift_seenFrom, hhead]
  · rw [h.docker, Point.shift_seenFrom]
    exact h.border

/-- A line from the border of a task that turns once on its way to the middle of a sentry agrees with
its dockers. -/
theorem Edge.Leaves.attached {m n : Node Rat} {p q : Point Rat} {s : Sentry Rat} {e : Edge Rat}
    (h : e.Leaves d m p) (hs : s.SitsOn n.box) (waypoints : e.waypoints = [p, q, s.anchor])
    (turn : (p.x = q.x ∧ q.y = s.anchor.y) ∨ (p.y = q.y ∧ q.x = s.anchor.x))
    (targetDocker : e.targetDocker = ⟨7, 11⟩) : e.Attached d n s := by
  refine ⟨by simp [waypoints], ?_, fun hevent => absurd (h.event.symm.trans hevent) (by simp),
    h.complete (by rw [waypoints]; rfl), ?_⟩
  · rcases turn with ⟨hfirst, hsecond⟩ | ⟨hfirst, hsecond⟩ <;>
      simp [Edge.segments, waypoints, hfirst, hsecond]
  · rw [waypoints, targetDocker, hs.shift_eq_anchor]
    rfl

/-- A line that runs in one of the four ways agrees with its dockers. -/
theorem Edge.Runs.attached {n : Node Rat} {s : Sentry Rat} {e : Edge Rat} (h : e.Runs d n s)
    (hs : s.SitsOn n.box) : e.Attached d n s := by
  cases h with
  | start c hc hn event source anchor waypoints sourceDocker targetDocker =>
    refine ⟨by simp [waypoints], by simp [Edge.segments, waypoints], fun _ => ?_,
      fun hevent => absurd (event.symm.trans hevent) (by simp), ?_⟩
    · rw [waypoints, sourceDocker, source]
      rcases Diagram.mem_containers hc with rfl | ⟨m, hm, rfl⟩
      · exact .inl ⟨hn, rfl, rfl⟩
      · exact .inr ⟨m, hm, hn, rfl, rfl⟩
    · rw [waypoints, targetDocker, hs.shift_eq_anchor]
      rfl
  | across m p leaves _ waypoints targetDocker =>
    exact leaves.attached hs waypoints (.inr ⟨rfl, rfl⟩) targetDocker
  | along m p leaves _ waypoints targetDocker =>
    exact leaves.attached hs waypoints (.inl ⟨rfl, rfl⟩) targetDocker
  | around p leaves right top waypoints targetDocker =>
    refine ⟨by simp [waypoints], by simp [Edge.segments, waypoints],
      fun hevent => absurd (leaves.event.symm.trans hevent) (by simp),
      leaves.complete (by rw [waypoints]; rfl), ?_⟩
    rw [waypoints, targetDocker, Point.shift, Box.topLeft, add_zero]
    rfl

/-- A description with a stage whose tasks are entered from outside, and with a task that two others
lead to and that may be done again. -/
def Logic.crossing : Logic where
  tasks := [{ slug := "intake", displayName := "Intake", outcomes := ["done"] },
    { slug := "draft", displayName := "Draft", outcomes := ["done"] },
    { slug := "check", displayName := "Check", outcomes := ["done"] },
    { slug := "decide", displayName := "Decide", outcomes := ["accepted", "again"] }]
  patterns :=
    [⟨.sequential, ["intake", "draft", "decide"],
      [{ source := "decide", target := "decide", outcome := "again" }]⟩,
      ⟨.sequential, ["intake", "check", "decide"], []⟩]
  stages := [{ slug := "prepare", displayName := "Prepare", members := ["draft", "check"] }]

/-- The value that holds `crossing`. -/
def Logic.crossingValue : Json :=
  .obj [("tasks", .arr
      [.obj [("slug", .str "intake"), ("displayName", .str "Intake"),
          ("outcomes", .arr [.str "done"])],
        .obj [("slug", .str "draft"), ("displayName", .str "Draft"),
          ("outcomes", .arr [.str "done"])],
        .obj [("slug", .str "check"), ("displayName", .str "Check"),
          ("outcomes", .arr [.str "done"])],
        .obj [("slug", .str "decide"), ("displayName", .str "Decide"),
          ("outcomes", .arr [.str "accepted", .str "again"])]]),
    ("patterns", .arr
      [.obj [("type", .str "sequential"),
          ("tasks", .arr [.str "intake", .str "draft", .str "decide"]),
          ("conditions", .arr [.obj [("sourceTask", .str "decide"), ("targetTask", .str "decide"),
            ("outcome", .str "again")]])],
        .obj [("type", .str "sequential"),
          ("tasks", .arr [.str "intake", .str "check", .str "decide"])]]),
    ("stages", .arr [.obj [("slug", .str "prepare"), ("displayName", .str "Prepare"),
      ("tasks", .arr [.str "draft", .str "check"])]])]

theorem Logic.parse_crossingValue : parse crossingValue = .ok crossing := by
  rfl

/-- In both layouts of an accepted description every line to a sentry agrees with its dockers. -/
theorem layOut_attached {raw : Json} {logic : Logic} (h : Logic.parse raw = .ok logic)
    (mode : LayoutMode) :
    ∃ d routed, layOut mode logic = .ok d ∧ route logic d = .ok routed ∧
      List.Forall₂ (fun n entry => entry.1 = n.slug ∧
        ∀ s ∈ entry.2, ∀ e ∈ s.edges, e.Attached d n s) d.inOrder routed := by
  have hc := consistent_of_parse h
  obtain ⟨routed, hrouted, hall⟩ :=
    route_drawn (Layout.depicts_diagram mode logic) hc (Layout.roomy_diagram hc mode)
  refine ⟨_, routed, Layout.layOut_eq_ok hc mode, hrouted, hall.imp ?_⟩
  rintro n entry ⟨hslug, -, hdrawn⟩
  exact ⟨hslug, fun s hs e he => (hdrawn.runs s hs e he).attached (hdrawn.sitsOn s hs)⟩

theorem layOut_attached_crossing :
    Logic.parse Logic.crossingValue = .ok Logic.crossing ∧
      ∃ d routed, layOut .grid Logic.crossing = .ok d ∧ route Logic.crossing d = .ok routed ∧
        List.Forall₂ (fun n entry => entry.1 = n.slug ∧
          ∀ s ∈ entry.2, ∀ e ∈ s.edges, e.Attached d n s) d.inOrder routed :=
  ⟨Logic.parse_crossingValue, layOut_attached Logic.parse_crossingValue .grid⟩

end CasePlan
