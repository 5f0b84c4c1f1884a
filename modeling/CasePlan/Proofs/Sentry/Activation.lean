import CasePlan.Proofs.Sentry.Representation

/-!
# What can become active

A plan item becomes active when all events that one of its sentries waits for have happened; its
condition may hold or not.  `Activatable` is the least set of items that is closed under this.

* `Diagram.Blocks`: an item is held up by the tasks that lead to it unless it opens its container.
* `activatable_iff_acc`: an item can become active exactly if no chain of items that hold up one
  another leads to it for ever.
* `activatable_of_forward`: so all items can if every transition leads forward among the tasks or
  to an item that opens its container.
* `activatable_layOut` says this of layouts; `activatable_stuck` is a sequence that is to be
  repeated, and whose first task waits for its last.
-/

namespace CasePlan

variable {α : Type}

/-! ## Events and items -/

/-- An edge comes from the start of the main stage. -/
def Edge.FromMainStage (e : Edge α) : Prop := e.source = rootContainer ∧ e.event = .start

/-- The event of an edge is one that its source has: a stage starts, and a task is completed. -/
def Edge.IsFired (logic : Logic) (e : Edge α) : Prop :=
  match e.event with
  | .start => e.source ∈ logic.stages.map (·.slug)
  | .complete => e.source ∈ logic.slugs

/-- The plan items that can become active, given the sentries of all items.  The main stage is
started; another stage starts, and a task is completed, when its plan item has become active. -/
inductive Activatable (logic : Logic) (routed : List (Text × List (Sentry α))) : Text → Prop
  /-- Everything that one of the sentries waits for can happen. -/
  | of_sentry {item : Text} {sentries : List (Sentry α)} {s : Sentry α} :
      (item, sentries) ∈ routed → s ∈ sentries →
      (∀ e ∈ s.edges, ¬e.FromMainStage → e.IsFired logic) →
      (∀ e ∈ s.edges, ¬e.FromMainStage → Activatable logic routed e.source) →
      Activatable logic routed item

namespace Transition

/-- The source stands before the target among the tasks. -/
def isForward (logic : Logic) (t : Transition) : Bool :=
  match logic.position? t.source, logic.position? t.target with
  | some s, some n => s < n
  | _, _ => false

/-- A retry pattern declares the transition, and it leads back there. -/
def isRetry (logic : Logic) (t : Transition) : Bool :=
  logic.patterns.any fun p =>
    p.kind = .retry && p.conditions.any fun c => p.leadsBack c && t = c.transition

end Transition

variable [Coordinate α] {logic : Logic} {d : Diagram α}
  {routed : List (Text × List (Sentry α))}

/-- A task holds up an item: it leads to the item, and the item does not open its container. -/
def Diagram.Blocks (logic : Logic) (d : Diagram α) (source item : Text) : Prop :=
  (∃ t ∈ logic.external item, t.source = source) ∧
    ∃ n ∈ d.inOrder, n.slug = item ∧ ¬n.Opens logic d

/-! ## Which items are held up -/

theorem Diagram.Blocks.mem_slugs (hc : logic.Consistent) {source item : Text}
    (h : d.Blocks logic source item) : source ∈ logic.slugs := by
  obtain ⟨⟨t, ht, rfl⟩, -⟩ := h
  exact (hc.ends_mem_slugs (Logic.mem_external.1 ht).1).1

/-- No transition leads to a stage. -/
theorem external_eq_nil_of_stage (hc : logic.Consistent) {s : Stage} (hs : s ∈ logic.stages) :
    logic.external s.slug = [] := by
  rw [List.eq_nil_iff_forall_not_mem]
  intro t ht
  obtain ⟨ht, htarget, -⟩ := Logic.mem_external.1 ht
  exact (hc.stage s hs).slug_notMem (htarget ▸ (hc.ends_mem_slugs ht).2)

/-- What is known of routed sentries: every node has its entry, and every entry its node. -/
structure Guarded (logic : Logic) (d : Diagram α) (routed : List (Text × List (Sentry α))) :
    Prop where
  /-- The entry of a node. -/
  entry : ∀ n ∈ d.inOrder, ∃ sentries, (n.slug, sentries) ∈ routed ∧ n.GuardedBy logic d sentries
  /-- The node of an entry. -/
  node : ∀ item sentries, (item, sentries) ∈ routed →
    ∃ n ∈ d.inOrder, n.slug = item ∧ n.GuardedBy logic d sentries

theorem guarded_of_forall₂ (h : List.Forall₂
    (fun n entry => entry.1 = n.slug ∧ n.GuardedBy logic d entry.2) d.inOrder routed) :
    Guarded logic d routed where
  entry := by
    intro n hn
    obtain ⟨⟨item, sentries⟩, hmem, rfl, hguard⟩ := exists_mem_left_of_forall₂ h.flip hn
    exact ⟨sentries, hmem, hguard⟩
  node := by
    intro item sentries hmem
    obtain ⟨n, hn, hslug, hguard⟩ := exists_mem_left_of_forall₂ h hmem
    exact ⟨n, hn, hslug.symm, hguard⟩

/-- Nothing holds up an item with a start sentry. -/
theorem not_blocks_of_start (hd : d.Depicts logic) (hc : logic.Consistent) {n : Node α}
    (hn : n ∈ d.inOrder) {sentries : List (Sentry α)} (hguard : n.GuardedBy logic d sentries)
    {s : Sentry α} (hs : s ∈ sentries) (hk : s.kind = .start) (source : Text) :
    ¬d.Blocks logic source n.slug := by
  rintro ⟨⟨t, ht, -⟩, m, hm, hslug, hopens⟩
  obtain rfl := List.inj_on_of_nodup_map (hd.nodup_inOrder hc) hm hn hslug
  rcases hguard.start_iff.1 ⟨s, hs, hk⟩ with hnil | h
  · rw [hnil] at ht
    exact absurd ht List.not_mem_nil
  · exact hopens h

/-! ## An item with a start sentry -/

/-- A stage can become active: it waits for the main stage only. -/
theorem activatable_stage (hd : d.Depicts logic) (hc : logic.Consistent)
    (hr : Guarded logic d routed) {s : Stage} (hs : s ∈ logic.stages) :
    Activatable logic routed s.slug := by
  obtain ⟨n, hn, hshows⟩ := hd.exists_showsStage hc hs
  obtain ⟨sentries, hmem, hguard⟩ := hr.entry n hn
  have hexternal : logic.external n.slug = [] := by
    rw [hshows.slug]
    exact external_eq_nil_of_stage hc hs
  obtain ⟨g, hg, hk⟩ := hguard.start_iff.2 (.inl hexternal)
  obtain ⟨-, e, hedges, hsource, hevent⟩ := hguard.start g hg hk
  have hmain : ∀ e' ∈ g.edges, e'.FromMainStage := by
    intro e' he'
    rw [hedges, List.mem_singleton] at he'
    subst he'
    exact ⟨by rw [hsource, hshows.parent]; rfl, hevent⟩
  rw [← hshows.slug]
  exact .of_sentry hmem hg (fun e he hnot => absurd (hmain e he) hnot)
    fun e he hnot => absurd (hmain e he) hnot

/-- An item with a start sentry can become active: its stage can, if it has one. -/
theorem activatable_of_start (hd : d.Depicts logic) (hc : logic.Consistent)
    (hr : Guarded logic d routed) {n : Node α} (hn : n ∈ d.inOrder) {sentries : List (Sentry α)}
    (hmem : (n.slug, sentries) ∈ routed) (hguard : n.GuardedBy logic d sentries)
    (hstart : ∃ s ∈ sentries, s.kind = .start) : Activatable logic routed n.slug := by
  obtain ⟨g, hg, hk⟩ := hstart
  obtain ⟨-, e, hedges, hsource, hevent⟩ := hguard.start g hg hk
  rcases hd.shows_of_mem hc hn with ⟨s, hs, hshows⟩ | ⟨t, -, hshows⟩
  · rw [hshows.slug]
    exact activatable_stage hd hc hr hs
  · cases hstage : logic.stageOf? t.slug with
    | none =>
      have hmain : e.FromMainStage := by
        refine ⟨?_, hevent⟩
        rw [hsource, hshows.parent, hstage]
        rfl
      refine .of_sentry hmem hg (fun e' he' hnot => ?_) fun e' he' hnot => ?_
      all_goals
        rw [hedges, List.mem_singleton] at he'
        exact absurd (he' ▸ hmain) hnot
    | some s =>
      have hs := (Logic.mem_of_stageOf?_eq_some hstage).1
      have hslug : e.source = s.slug := by
        rw [hsource, hshows.parent, hstage]
        rfl
      refine .of_sentry hmem hg (fun e' he' _ => ?_) fun e' he' _ => ?_
      all_goals
        rw [hedges, List.mem_singleton] at he'
        subst he'
      · rw [Edge.IsFired, hevent, hslug]
        exact List.mem_map_of_mem hs
      · rw [hslug]
        exact activatable_stage hd hc hr hs

/-! ## The least set -/

/-- An item that can become active is held up by no endless chain. -/
theorem acc_of_activatable (hd : d.Depicts logic) (hc : logic.Consistent)
    (hr : Guarded logic d routed) {item : Text} (h : Activatable logic routed item) :
    Acc (d.Blocks logic) item := by
  induction h with
  | @of_sentry item sentries s hmem hs _ _ ih =>
    obtain ⟨n, hn, rfl, hguard⟩ := hr.node item sentries hmem
    cases hk : s.kind with
    | start =>
      exact .intro _ fun source hblocks =>
        absurd hblocks (not_blocks_of_start hd hc hn hguard hs hk source)
    | transition =>
      -- every task that holds up the item is the source of an edge
      refine .intro _ fun source hblocks => ?_
      obtain ⟨⟨t, ht, rfl⟩, -⟩ := hblocks
      have hedge : (t.source, Event.complete) ∈ s.edges.map fun e => (e.source, e.event) := by
        rw [(hguard.transition s hs hk).1]
        exact List.mem_map_of_mem (List.mem_eraseDups.2 (List.mem_map_of_mem ht))
      obtain ⟨e, he, heq⟩ := List.mem_map.1 hedge
      obtain ⟨hsource, hevent⟩ := Prod.mk.inj heq
      rw [← hsource]
      exact ih e he fun hmain => absurd (hevent.symm.trans hmain.2) (by simp)
    | selfLoop =>
      -- the item waits for itself, so the claim is the one for its own completion
      have hedges := (hguard.selfLoop s hs hk).1
      obtain ⟨e, he, heq⟩ := List.map_eq_singleton_iff.1 hedges
      obtain ⟨hsource, hevent⟩ := Prod.mk.inj heq
      rw [← hsource]
      exact ih e (by rw [he]; exact List.mem_singleton_self e)
        fun hmain => absurd (hevent.symm.trans hmain.2) (by simp)

/-- An item that no endless chain holds up can become active. -/
theorem activatable_of_acc (hd : d.Depicts logic) (hc : logic.Consistent)
    (hr : Guarded logic d routed) {item : Text} (h : Acc (d.Blocks logic) item) :
    ∀ n ∈ d.inOrder, n.slug = item → Activatable logic routed item := by
  induction h with
  | intro item _ ih =>
    rintro n hn rfl
    obtain ⟨sentries, hmem, hguard⟩ := hr.entry n hn
    by_cases hstart : ∃ s ∈ sentries, s.kind = .start
    · exact activatable_of_start hd hc hr hn hmem hguard hstart
    · -- without a start sentry the item waits for all that lead to it, and they hold it up
      rw [hguard.start_iff, not_or] at hstart
      obtain ⟨hne, hopens⟩ := hstart
      obtain ⟨t, ht⟩ := List.exists_mem_of_ne_nil _ hne
      obtain ⟨s, hs, hk⟩ := hguard.transition_iff.2 ⟨t, Logic.mem_external.1 ht⟩
      have hsource : ∀ e ∈ s.edges, e.event = .complete ∧ d.Blocks logic e.source n.slug := by
        intro e he
        have hedge := List.mem_map_of_mem (f := fun e => (e.source, e.event)) he
        rw [(hguard.transition s hs hk).1, List.mem_map] at hedge
        obtain ⟨source, hsource, heq⟩ := hedge
        obtain ⟨rfl, hevent⟩ := Prod.mk.inj heq
        rw [List.mem_eraseDups, List.mem_map] at hsource
        exact ⟨hevent.symm, hsource, n, hn, rfl, hopens⟩
      refine .of_sentry hmem hs (fun e he _ => ?_) fun e he _ => ?_
      · rw [Edge.IsFired, (hsource e he).1]
        exact (hsource e he).2.mem_slugs hc
      · have hblocks := (hsource e he).2
        obtain ⟨t, ht, hslug⟩ := Logic.mem_slugs.1 (hblocks.mem_slugs hc)
        obtain ⟨m, hm, hshows⟩ := hd.exists_showsTask hc ht
        exact ih e.source hblocks m hm (hshows.slug.trans hslug)

/-- An item can become active exactly if no endless chain of items holds it up. -/
theorem activatable_iff_acc (hd : d.Depicts logic) (hc : logic.Consistent)
    (hr : Guarded logic d routed) {n : Node α} (hn : n ∈ d.inOrder) :
    Activatable logic routed n.slug ↔ Acc (d.Blocks logic) n.slug :=
  ⟨acc_of_activatable hd hc hr, fun h => activatable_of_acc hd hc hr h n hn rfl⟩

/-! ## Transitions that lead forward -/

omit [Coordinate α] in
theorem lt_of_isForward {t : Transition} (h : t.isForward logic = true) :
    (logic.position? t.source).getD 0 < (logic.position? t.target).getD 0 := by
  unfold Transition.isForward at h
  split at h
  · next hs hn =>
    rw [hs, hn]
    exact of_decide_eq_true h
  · exact absurd h Bool.false_ne_true

/-- All items can become active if every transition between two tasks leads forward, or to an item
that opens its container. -/
theorem activatable_of_forward (hd : d.Depicts logic) (hc : logic.Consistent)
    (hr : Guarded logic d routed)
    (h : ∀ t ∈ logic.transitions, t.isSelfLoop = false →
      t.isForward logic = true ∨ ∃ n ∈ d.inOrder, n.slug = t.target ∧ n.Opens logic d)
    {n : Node α} (hn : n ∈ d.inOrder) : Activatable logic routed n.slug := by
  have hlt : ∀ {source item : Text}, d.Blocks logic source item →
      (logic.position? source).getD 0 < (logic.position? item).getD 0 := by
    rintro source item ⟨⟨t, hexternal, rfl⟩, m, hm, hslug, hopens⟩
    obtain ⟨ht, rfl, hne⟩ := Logic.mem_external.1 hexternal
    rcases h t ht (decide_eq_false hne) with hforward | ⟨m', hm', hslug', hopens'⟩
    · exact lt_of_isForward hforward
    · obtain rfl := List.inj_on_of_nodup_map (hd.nodup_inOrder hc) hm hm' (hslug.trans hslug'.symm)
      exact absurd hopens' hopens
  have hwf : WellFounded (d.Blocks logic) :=
    Subrelation.wf hlt (InvImage.wf (fun slug => (logic.position? slug).getD 0) Nat.lt_wfRel.wf)
  exact (activatable_iff_acc hd hc hr hn).2 (hwf.apply n.slug)

/-- In the layout of an accepted description an item can become active exactly if no endless chain
of items holds it up.  All can if every transition between two tasks leads forward, or to an item
that opens its container. -/
theorem activatable_layOut {raw : Json} {logic : Logic} (h : Logic.parse raw = .ok logic)
    (mode : LayoutMode) :
    ∃ d routed, layOut mode logic = .ok d ∧ route logic d = .ok routed ∧
      routed.map Prod.fst = d.inOrder.map (·.slug) ∧
      (∀ n ∈ d.inOrder, Activatable logic routed n.slug ↔ Acc (d.Blocks logic) n.slug) ∧
      ((∀ t ∈ logic.transitions, t.isSelfLoop = false →
          t.isForward logic = true ∨ ∃ n ∈ d.inOrder, n.slug = t.target ∧ n.Opens logic d) →
        ∀ n ∈ d.inOrder, Activatable logic routed n.slug) := by
  have hc := consistent_of_parse h
  have hd := Layout.depicts_diagram mode logic
  obtain ⟨routed, hrouted, hall⟩ := route_represents hd hc
  have hr := guarded_of_forall₂ hall
  exact ⟨_, routed, Layout.layOut_eq_ok hc mode, hrouted,
    (map_eq_map_of_forall₂ (hall.imp fun _ _ h => h.1.symm)).symm,
    fun n hn => activatable_iff_acc hd hc hr hn,
    fun hforward n hn => activatable_of_forward hd hc hr hforward hn⟩

/-- A task before a sequence that is to be repeated. -/
def stuck : Logic where
  tasks := [{ slug := "open", displayName := "Open", outcomes := ["done"] },
    { slug := "draft", displayName := "Draft", outcomes := ["done"] },
    { slug := "review", displayName := "Review", outcomes := ["approved", "again"] }]
  patterns :=
    [⟨.retry, ["draft", "review"],
      [{ source := "review", target := "draft", outcome := "again" }]⟩]

/-- The value that holds `stuck`. -/
def stuckValue : Json :=
  .obj [("tasks", .arr
      [.obj [("slug", .str "open"), ("displayName", .str "Open"), ("outcomes", .arr [.str "done"])],
        .obj [("slug", .str "draft"), ("displayName", .str "Draft"),
          ("outcomes", .arr [.str "done"])],
        .obj [("slug", .str "review"), ("displayName", .str "Review"),
          ("outcomes", .arr [.str "approved", .str "again"])]]),
    ("patterns", .arr
      [.obj [("type", .str "retry"), ("tasks", .arr [.str "draft", .str "review"]),
        ("conditions", .arr [.obj [("sourceTask", .str "review"), ("targetTask", .str "draft"),
          ("outcome", .str "again")]])]])]

/-- Two items that hold up each other are held up for ever. -/
theorem not_acc_of_blocks {r : Text → Text → Prop} {a b : Text} (hab : r a b) (hba : r b a) :
    ¬Acc r a := by
  intro h
  induction h generalizing b with
  | intro a _ ih => exact ih b hba hba hab

/-- Each transition of `stuck` leads forward or is declared to lead back by a retry pattern, and
yet the first task of the sequence waits for the last, which waits for it. -/
theorem activatable_stuck :
    Logic.parse stuckValue = .ok stuck ∧
      (∀ t ∈ stuck.transitions, t.isSelfLoop = false →
        t.isForward stuck = true ∨ t.isRetry stuck = true) ∧
      ∃ d routed, layOut .alternating stuck = .ok d ∧ route stuck d = .ok routed ∧
        (∃ sentries, (("draft" : Text), sentries) ∈ routed) ∧ ¬Activatable stuck routed "draft" := by
  have hparse : Logic.parse stuckValue = .ok stuck := by rfl
  have hc := consistent_of_parse hparse
  obtain ⟨d, routed, hd, hrouted, hkeys, hiff, -⟩ := activatable_layOut hparse .alternating
  obtain rfl := Except.ok.inj ((Layout.layOut_eq_ok hc .alternating).symm.trans hd)
  have hslugs : (Layout.diagram .alternating stuck).inOrder.map (·.slug) =
      (["open", "draft", "review"] : List Text) := by rfl
  have hheads : ((Layout.diagram .alternating stuck).containers.map fun c =>
      c.members.head?.map (·.slug)) = ([some "open"] : List (Option Text)) := by rfl
  have hopens : ∀ n : Node Rat, n.slug ≠ ("open" : Text) →
      ¬n.Opens stuck (Layout.diagram .alternating stuck) := by
    rintro n hne ⟨container, hmem, hhead, -⟩
    have hfirst := List.mem_map_of_mem (f := fun c : Container Rat => c.members.head?.map (·.slug)) hmem
    rw [hheads, List.mem_singleton, hhead] at hfirst
    exact hne (Option.some.inj hfirst)
  have hnode : ∀ slug ∈ (["open", "draft", "review"] : List Text),
      ∃ n ∈ (Layout.diagram .alternating stuck).inOrder, n.slug = slug := by
    intro slug hslug
    rw [← hslugs] at hslug
    exact List.mem_map.1 hslug
  obtain ⟨draft, hdraft, hdraftSlug⟩ := hnode "draft" (by decide)
  obtain ⟨review, hreview, hreviewSlug⟩ := hnode "review" (by decide)
  refine ⟨hparse, by decide +kernel, _, routed, hd, hrouted, ?_, ?_⟩
  · have hkey : ("draft" : Text) ∈ routed.map Prod.fst := by
      rw [hkeys, hslugs]
      decide
    obtain ⟨⟨slug, sentries⟩, hmem, rfl⟩ := List.mem_map.1 hkey
    exact ⟨sentries, hmem⟩
  · have hback : (Layout.diagram .alternating stuck).Blocks stuck "review" "draft" :=
      ⟨by decide +kernel, draft, hdraft, hdraftSlug, hopens draft (by rw [hdraftSlug]; decide)⟩
    have hforth : (Layout.diagram .alternating stuck).Blocks stuck "draft" "review" :=
      ⟨by decide +kernel, review, hreview, hreviewSlug, hopens review (by rw [hreviewSlug]; decide)⟩
    rw [← hdraftSlug, hiff draft hdraft, hdraftSlug]
    exact not_acc_of_blocks hforth hback

end CasePlan
