import CasePlan.Proofs.Sentry.Activation

/-!
# Entering a stage

A task of a stage that an earlier task outside the stage leads to waits for that task, even if it is
the first of the stage.  Stages are told from the main stage by their slugs, so this fails in a stage
that has the name of the main stage for its slug.

* `Logic.EntersFromOutside`: an earlier task outside a stage leads to one of its tasks.
* `containerOf?_eq`: the container of a task is its stage, or the main stage.
* `isEntered_iff`: what routing takes for an entrance is one, unless the stage is taken for the main
  stage.
* `opens_iff`: which tasks open their stage.
* `Stage.Admits`: whether a task of a stage starts with it; `layOut_admits` is about layouts, and
  `layOut_admits_bypassed` is a stage that starts a task before the one that leads to it.
-/

namespace CasePlan

/-- An earlier task that is not in a stage leads to a slug. -/
def Logic.EntersFromOutside (logic : Logic) (s : Stage) (slug : Text) : Prop :=
  ∃ t ∈ logic.transitions, t.target = slug ∧ t.source ∉ s.members ∧ t.isForward logic = true

instance (logic : Logic) (s : Stage) (slug : Text) : Decidable (logic.EntersFromOutside s slug) :=
  inferInstanceAs (Decidable (∃ t ∈ logic.transitions, _ ∧ _ ∧ _))

/-- Whether the sentries of a task of a stage start it with the stage. -/
structure Stage.Admits {α : Type} (logic : Logic) (s : Stage) (slug : Text)
    (sentries : List (Sentry α)) : Prop where
  /-- A task that is entered from outside does not start with the stage, unless it is the first of a
  stage that is taken for the main stage. -/
  entered : logic.EntersFromOutside s slug → ((∃ g ∈ sentries, g.kind = .start) ↔
    s.members.head? = some slug ∧ s.slug = rootContainer)
  /-- The first task of the stage starts with it if it is not entered from outside. -/
  first : s.members.head? = some slug → ¬logic.EntersFromOutside s slug →
    ∃ g ∈ sentries, g.kind = .start
  /-- To start with the stage is to wait for its start, and for nothing else. -/
  start : ∀ g ∈ sentries, g.kind = .start →
    ∃ e, g.edges = [e] ∧ e.source = s.slug ∧ e.event = .start

variable {α : Type} [Coordinate α] {logic : Logic} {d : Diagram α} {s : Stage} {n : Node α}

/-! ## Where tasks are -/

namespace Routing

/-- The container that is found for a node is the one that it lies in. -/
theorem containerOf?_eq (hd : d.Depicts logic) (hc : logic.Consistent) (hn : n ∈ d.inOrder) :
    containerOf? d.containers n.slug = some (n.parent.getD rootContainer) := by
  obtain ⟨slug, hslug⟩ := Option.isSome_iff_exists.1 (Diagram.isSome_containerOf? hn)
  obtain ⟨container, hfind, rfl⟩ := Option.map_eq_some_iff.1 hslug
  have hmem : container ∈ d.containers := by simpa using List.mem_of_find?_eq_some hfind
  obtain ⟨m, hm, hmslug⟩ : ∃ m ∈ container.members, m.slug = n.slug := by
    simpa using List.find?_some hfind
  have hin := Diagram.mem_inOrder_iff_mem_members.2 ⟨container, hmem, hm⟩
  obtain rfl := List.inj_on_of_nodup_map (hd.nodup_inOrder hc) hin hn hmslug
  rw [hslug, hd.container_slug hmem hm]

/-- The container of a task is a stage exactly if the task is a member of the stage, unless the stage
is taken for the main stage. -/
theorem containerOf?_eq_iff (hd : d.Depicts logic) (hc : logic.Consistent) (hs : s ∈ logic.stages)
    (hroot : s.slug ≠ rootContainer) {slug : Text} (hslug : slug ∈ logic.slugs) :
    containerOf? d.containers slug = some s.slug ↔ slug ∈ s.members := by
  obtain ⟨t, ht, rfl⟩ := Logic.mem_slugs.1 hslug
  obtain ⟨m, hm, hshows⟩ := hd.exists_showsTask hc ht
  rw [← hshows.slug, containerOf?_eq hd hc hm, hshows.parent, hshows.slug, Option.some.injEq]
  cases hstage : logic.stageOf? t.slug with
  | none =>
    have hnot := Logic.stageOf?_eq_none_iff.1 hstage s hs
    exact ⟨fun h => absurd h.symm hroot, fun h => absurd h hnot⟩
  | some s' =>
    obtain ⟨hs', hmem⟩ := Logic.mem_of_stageOf?_eq_some hstage
    constructor
    · intro h
      rwa [← List.inj_on_of_nodup_map hc.nodup_stages hs' hs h]
    · intro h
      rw [hc.eq_of_mem_members hs hs' h hmem]
      rfl

/-- What routing takes for an entrance is one, unless the stage is taken for the main stage. -/
theorem isEntered_iff (hd : d.Depicts logic) (hc : logic.Consistent) (hs : s ∈ logic.stages) :
    isEntered logic d.containers s.slug n (logic.incoming n.slug) = true ↔
      s.slug ≠ rootContainer ∧ logic.EntersFromOutside s n.slug := by
  rw [isEntered, Bool.and_eq_true, decide_eq_true_eq, List.any_eq_true]
  refine and_congr_right fun hroot => exists_congr fun t => ?_
  rw [Logic.incoming, List.mem_filter, decide_eq_true_eq, and_assoc]
  refine and_congr_right fun ht => and_congr_right fun htarget => ?_
  obtain ⟨hsource, hin⟩ := hc.ends_mem_slugs ht
  obtain ⟨i, hi⟩ := Option.isSome_iff_exists.1 (Logic.isSome_position? hsource)
  obtain ⟨k, hk⟩ := Option.isSome_iff_exists.1 (Logic.isSome_position? hin)
  rw [Bool.and_eq_true, decide_eq_true_eq, Ne, containerOf?_eq_iff hd hc hs hroot hsource,
    Transition.isForward, ← htarget, hi, hk]

end Routing

/-! ## Which tasks open their stage -/

omit [Coordinate α] in
/-- The node of a member of a stage is in the stage. -/
theorem Diagram.Depicts.parent_eq_some (hd : d.Depicts logic) (hc : logic.Consistent)
    (hs : s ∈ logic.stages) (hn : n ∈ d.inOrder) (hmem : n.slug ∈ s.members) :
    n.parent = some s.slug := by
  have hslug := (hc.stage s hs).members_subset _ hmem
  rcases hd.shows_of_mem hc hn with ⟨s', hs', h⟩ | ⟨t, -, h⟩
  · exact absurd (h.slug ▸ hslug) (hc.stage s' hs').slug_notMem
  · rw [h.parent, ← h.slug, hc.stageOf?_eq_some hs hmem]
    rfl

/-- A stage has a container, and the nodes in it are those of its members. -/
theorem Diagram.Depicts.exists_container (hd : d.Depicts logic) (hc : logic.Consistent)
    (hs : s ∈ logic.stages) :
    ∃ c ∈ d.containers, c.slug = s.slug ∧ c.members.map (·.slug) = s.members := by
  obtain ⟨m, hm, hshows⟩ := exists_mem_left_of_forall₂ hd.flip ((Layout.mem_items_stage hc).2 hs)
  have hmembers : m.children.map (·.slug) = s.members := map_slug_of_showsMember hshows.children
  refine ⟨⟨m.slug, m.box.topLeft, m.children⟩, ?_, hshows.slug, hmembers⟩
  have hne : m.children ≠ [] := by
    intro hnil
    rw [hnil] at hmembers
    exact (hc.stage s hs).members_ne_nil hmembers.symm
  refine List.mem_cons_of_mem _ (List.mem_map_of_mem (List.mem_filter.2 ⟨hm, ?_⟩))
  rwa [Bool.not_eq_true', List.isEmpty_eq_false_iff]

/-- A task opens its stage if it is the first there and not entered from outside, or the stage is
taken for the main stage. -/
theorem Node.opens_iff (hd : d.Depicts logic) (hc : logic.Consistent) (hs : s ∈ logic.stages)
    (hn : n ∈ d.inOrder) (hmem : n.slug ∈ s.members) :
    n.Opens logic d ↔ s.members.head? = some n.slug ∧
      (s.slug = rootContainer ∨ ¬logic.EntersFromOutside s n.slug) := by
  obtain ⟨c, hcontainer, hslug, hmembers⟩ := hd.exists_container hc hs
  have hsame : ∀ m ∈ c.members, m.slug = n.slug → m = n := fun m hm =>
    List.inj_on_of_nodup_map (hd.nodup_inOrder hc)
      (Diagram.mem_inOrder_iff_mem_members.2 ⟨c, hcontainer, hm⟩) hn
  -- the container of the stage is the one that the node lies in
  have hin : n ∈ c.members := by
    rw [← hmembers] at hmem
    obtain ⟨m, hm, h⟩ := List.mem_map.1 hmem
    rwa [← hsame m hm h]
  have hopens : n.Opens logic d ↔ c.members.head? = some n ∧
      Routing.isEntered logic d.containers c.slug n (logic.incoming n.slug) = false := by
    constructor
    · rintro ⟨c', hc', hhead, hentered⟩
      obtain rfl := eq_of_nodup_flatMap (hd.nodup_members hc) hc' hcontainer
        (List.mem_of_mem_head? hhead) hin
      exact ⟨hhead, hentered⟩
    · exact fun h => ⟨c, hcontainer, h⟩
  have hhead : c.members.head? = some n ↔ s.members.head? = some n.slug := by
    rw [← hmembers, List.head?_map, Option.map_eq_some_iff]
    constructor
    · exact fun h => ⟨n, h, rfl⟩
    · rintro ⟨m, hm, h⟩
      rwa [← hsame m (List.mem_of_mem_head? hm) h]
  rw [hopens, hhead, hslug, ← Bool.not_eq_true, Routing.isEntered_iff hd hc hs, not_and_or,
    not_not]

/-! ## Starting with the stage -/

/-- Sentries that guard a task of a stage hold it back until it is entered, or start it with the
stage. -/
theorem Node.GuardedBy.admits (hd : d.Depicts logic) (hc : logic.Consistent)
    {sentries : List (Sentry α)} (hguard : n.GuardedBy logic d sentries) (hs : s ∈ logic.stages)
    (hn : n ∈ d.inOrder) (hmem : n.slug ∈ s.members) : s.Admits logic n.slug sentries where
  entered := by
    intro h
    obtain ⟨t, ht, htarget, hsource, -⟩ := id h
    have hne : logic.external n.slug ≠ [] :=
      Logic.external_ne_nil_iff.2 ⟨t, ht, htarget, fun heq => hsource (heq ▸ hmem)⟩
    rw [hguard.start_iff, or_iff_right hne, opens_iff hd hc hs hn hmem]
    exact and_congr_right fun _ => or_iff_left (not_not.2 h)
  first := by
    intro hhead hnot
    exact hguard.start_iff.2 (.inr ((opens_iff hd hc hs hn hmem).2 ⟨hhead, .inr hnot⟩))
  start := by
    intro g hg hk
    obtain ⟨-, e, hedges, hsource, hevent⟩ := hguard.start g hg hk
    refine ⟨e, hedges, ?_, hevent⟩
    rw [hsource, hd.parent_eq_some hc hs hn hmem]
    rfl

/-- The sentries of a task are found under its slug. -/
theorem exists_get?_routed (hd : d.Depicts logic) (hc : logic.Consistent)
    {routed : List (Text × List (Sentry α))}
    (hall : List.Forall₂ (fun n entry => entry.1 = n.slug ∧ n.GuardedBy logic d entry.2)
      d.inOrder routed) {slug : Text} (hslug : slug ∈ logic.slugs) :
    ∃ n ∈ d.inOrder, n.slug = slug ∧
      ∃ sentries, Table.get? slug routed = some sentries ∧ n.GuardedBy logic d sentries := by
  have hkeys : (routed.map Prod.fst).Nodup := by
    rw [← map_eq_map_of_forall₂ (hall.imp fun _ _ h => h.1.symm)]
    exact hd.nodup_inOrder hc
  obtain ⟨t, ht, rfl⟩ := Logic.mem_slugs.1 hslug
  obtain ⟨n, hn, hshows⟩ := hd.exists_showsTask hc ht
  obtain ⟨sentries, hentry, hguard⟩ := (guarded_of_forall₂ hall).entry n hn
  rw [← hshows.slug]
  exact ⟨n, hn, rfl, sentries, Table.get?_eq_some_of_mem hkeys hentry, hguard⟩

/-- In both layouts of an accepted description the sentries of every task of a stage hold it back
until it is entered from outside, or start it with the stage. -/
theorem layOut_admits {raw : Json} {logic : Logic} (h : Logic.parse raw = .ok logic)
    (mode : LayoutMode) :
    ∃ d routed, layOut mode logic = .ok d ∧ route logic d = .ok routed ∧
      ∀ s ∈ logic.stages, ∀ slug ∈ s.members,
        ∃ sentries, Table.get? slug routed = some sentries ∧ s.Admits logic slug sentries := by
  have hc := consistent_of_parse h
  have hd := Layout.depicts_diagram mode logic
  obtain ⟨routed, hrouted, hall⟩ := route_represents hd hc
  refine ⟨_, routed, Layout.layOut_eq_ok hc mode, hrouted, fun s hs slug hmem => ?_⟩
  obtain ⟨n, hn, rfl, sentries, hget, hguard⟩ :=
    exists_get?_routed hd hc hall ((hc.stage s hs).members_subset slug hmem)
  exact ⟨sentries, hget, hguard.admits hd hc hs hn hmem⟩

/-- A stage that has the name of the main stage for its slug, and that an earlier task leads to. -/
def bypassed : Logic where
  tasks := [{ slug := "submit", displayName := "Submit", outcomes := ["done"] },
    { slug := "review", displayName := "Review", outcomes := ["done"] }]
  patterns := [⟨.sequential, ["submit", "review"], []⟩]
  stages := [{ slug := "__root__", displayName := "Checks", members := ["review"] }]

/-- The value that holds `bypassed`. -/
def bypassedValue : Json :=
  .obj [("tasks", .arr
      [.obj [("slug", .str "submit"), ("displayName", .str "Submit"),
          ("outcomes", .arr [.str "done"])],
        .obj [("slug", .str "review"), ("displayName", .str "Review"),
          ("outcomes", .arr [.str "done"])]]),
    ("stages", .arr [.obj [("slug", .str "__root__"), ("displayName", .str "Checks"),
      ("tasks", .arr [.str "review"])]]),
    ("patterns", .arr [.obj [("type", .str "sequential"),
      ("tasks", .arr [.str "submit", .str "review"])]])]

/-- The only task of the stage of `bypassed` is entered from outside, and starts with the stage. -/
theorem layOut_admits_bypassed :
    Logic.parse bypassedValue = .ok bypassed ∧ ∃ s ∈ bypassed.stages, ("review" : Text) ∈ s.members ∧
      bypassed.EntersFromOutside s "review" ∧
      ∃ d routed, layOut .alternating bypassed = .ok d ∧ route bypassed d = .ok routed ∧
        ∃ sentries, Table.get? ("review" : Text) routed = some sentries ∧
          ∃ g ∈ sentries, g.kind = .start := by
  have hparse : Logic.parse bypassedValue = .ok bypassed := by rfl
  obtain ⟨d, routed, hd, hrouted, hall⟩ := layOut_admits hparse .alternating
  obtain ⟨sentries, hget, hadmits⟩ := hall _ List.mem_cons_self "review" List.mem_cons_self
  have henters : bypassed.EntersFromOutside
      { slug := "__root__", displayName := "Checks", members := ["review"] } "review" := by
    decide +kernel
  exact ⟨hparse, _, List.mem_cons_self, List.mem_cons_self, henters, d, routed, hd, hrouted,
    sentries, hget, (hadmits.entered henters).2 ⟨rfl, rfl⟩⟩

end CasePlan
