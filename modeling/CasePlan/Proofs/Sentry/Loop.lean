import CasePlan.Proofs.Expression.Reading
import CasePlan.Proofs.Logic.Expansion
import CasePlan.Proofs.Sentry.Entrance

/-!
# Starting again after oneself

A task that leads to itself has one sentry for that, however many of its transitions do.  With one
such transition the sentry is the transition's own; with several it waits for the conditions of all
of them together.

* `Logic.Separates`: every transition from a task to itself has a sentry of its own.
* `Logic.Reenters`: what the sentries of a task do instead.
* `Node.GuardedBy.reenters`: sentries that guard a node do so.
* `layOut_reenters` is about layouts, and `layOut_reenters_blocked` is a task that may start again
  after two outcomes and can after none.
-/

namespace CasePlan

variable {α : Type}

namespace Logic

/-- Each transition from a task to itself has its own sentry, with its condition. -/
def Separates (logic : Logic) (slug : Text) (sentries : List (Sentry α)) : Prop :=
  List.Forall₂
    (fun t s => s.edges.map (fun e => (e.source, e.event)) = [(slug, .complete)] ∧
      s.condition = Expression.condition t.condition.toList)
    (logic.loops slug) (sentries.filter (·.kind = .selfLoop))

/-- How the sentries of a task let it start again after itself. -/
structure Reenters (logic : Logic) (slug : Text) (sentries : List (Sentry α)) : Prop where
  /-- Without a transition from the task to itself there is no sentry for it. -/
  none : logic.loops slug = [] → sentries.filter (·.kind = .selfLoop) = []
  /-- Otherwise there is one, which waits for the completion of the task and has the conditions of
  all these transitions. -/
  one : logic.loops slug ≠ [] → ∃ s, sentries.filter (·.kind = .selfLoop) = [s] ∧
    s.edges.map (fun e => (e.source, e.event)) = [(slug, .complete)] ∧
    s.condition = Expression.condition ((logic.loops slug).filterMap (·.condition))
  /-- So every transition has its own sentry only if there are not several. -/
  separates_iff : logic.Separates slug sentries ↔ (logic.loops slug).length ≤ 1
  /-- If all conditions are joined by `both`, an outcome must pass all of them. -/
  admits_iff : (∀ t ∈ logic.loops slug, ∀ c ∈ t.condition, c.join = .both) →
    ∀ s ∈ sentries, s.kind = .selfLoop → ∀ outcome, Expression.Admits s.condition outcome ↔
      ∀ t ∈ logic.loops slug, ∀ c ∈ t.condition, Expression.Passes outcome c.outcome c.comparison

end Logic

variable [Coordinate α] {logic : Logic} {d : Diagram α} {n : Node α} {sentries : List (Sentry α)}

namespace Node.GuardedBy

/-- Of the sentries that guard a node at most one is of a kind. -/
theorem length_filter_kind_le (h : n.GuardedBy logic d sentries) (k : SentryKind) :
    (sentries.filter (·.kind = k)).length ≤ 1 := by
  have hcount : (sentries.map (·.kind)).count k ≤ 1 :=
    (h.kind.count_le k).trans (List.nodup_iff_count_le_one.1 (by decide) k)
  rw [List.count, List.countP_map, List.countP_eq_length_filter] at hcount
  exact hcount

/-- Sentries that guard a node let it start again after itself as described. -/
theorem reenters (h : n.GuardedBy logic d sentries) : logic.Reenters n.slug sentries := by
  have hlength := h.length_filter_kind_le .selfLoop
  have hmem : ∀ {s},
      s ∈ sentries.filter (·.kind = .selfLoop) ↔ s ∈ sentries ∧ s.kind = .selfLoop := by
    simp
  have hnone : logic.loops n.slug = [] → sentries.filter (·.kind = .selfLoop) = [] := by
    intro hloops
    rw [List.eq_nil_iff_forall_not_mem]
    exact fun s hs => Logic.loops_ne_nil_iff.2 (h.selfLoop_iff.1 ⟨s, hmem.1 hs⟩) hloops
  have hone : logic.loops n.slug ≠ [] → ∃ s, sentries.filter (·.kind = .selfLoop) = [s] ∧
      s.edges.map (fun e => (e.source, e.event)) = [(n.slug, .complete)] ∧
      s.condition = Expression.condition ((logic.loops n.slug).filterMap (·.condition)) := by
    intro hloops
    obtain ⟨s, hs, hkind⟩ := h.selfLoop_iff.2 (Logic.loops_ne_nil_iff.1 hloops)
    have hpos := List.length_pos_of_mem (hmem.2 ⟨hs, hkind⟩)
    obtain ⟨u, hu⟩ := List.length_eq_one_iff.1 (Nat.le_antisymm hlength hpos)
    obtain rfl : s = u := List.mem_singleton.1 (hu ▸ hmem.2 ⟨hs, hkind⟩)
    exact ⟨s, hu, h.selfLoop s hs hkind⟩
  refine ⟨hnone, hone, ⟨fun hseparates => hseparates.length_eq ▸ hlength, fun hle => ?_⟩, ?_⟩
  · rw [Logic.Separates]
    match hloops : logic.loops n.slug, hle with
    | [], _ =>
      rw [hnone hloops]
      exact .nil
    | [t], _ =>
      obtain ⟨s, hs, hedges, hcondition⟩ := hone (by rw [hloops]; exact List.cons_ne_nil _ _)
      rw [hs]
      rw [hloops, List.filterMap_cons] at hcondition
      refine .cons ⟨hedges, hcondition.trans ?_⟩ .nil
      cases t.condition <;> rfl
  · intro hboth s hs hkind outcome
    rw [(h.selfLoop s hs hkind).2, Expression.admits_condition_iff]
    · simp only [List.mem_filterMap, forall_exists_index, and_imp, Option.mem_def]
      exact ⟨fun hall t ht c hc => hall c t ht hc, fun hall c t ht hc => hall t ht c hc⟩
    · intro c hc
      obtain ⟨t, ht, htc⟩ := List.mem_filterMap.1 hc
      exact hboth t ht c htc

end Node.GuardedBy

/-- In both layouts of an accepted description the transitions from a task to itself, which are all
different, share one sentry of the task. -/
theorem layOut_reenters {raw : Json} {logic : Logic} (h : Logic.parse raw = .ok logic)
    (mode : LayoutMode) :
    ∃ d routed, layOut mode logic = .ok d ∧ route logic d = .ok routed ∧
      ∀ slug ∈ logic.slugs, (logic.loops slug).Nodup ∧
        ∃ sentries, Table.get? slug routed = some sentries ∧ logic.Reenters slug sentries := by
  have hc := consistent_of_parse h
  have hd := Layout.depicts_diagram mode logic
  obtain ⟨routed, hrouted, hall⟩ := route_represents hd hc
  refine ⟨_, routed, Layout.layOut_eq_ok hc mode, hrouted, fun slug hslug => ?_⟩
  obtain ⟨n, -, rfl, sentries, hget, hguard⟩ := exists_get?_routed hd hc hall hslug
  exact ⟨(logic.nodup_transitions.filter _).filter _, sentries, hget, hguard.reenters⟩

/-- A task that is to be done again after each of two outcomes. -/
def blocked : Logic where
  tasks := [{ slug := "a", displayName := "A", outcomes := ["done", "again", "revise"] }]
  patterns := [⟨.retry, ["a"], [{ source := "a", target := "a", outcome := "again" },
    { source := "a", target := "a", outcome := "revise" }]⟩]

/-- The value that holds `blocked`. -/
def blockedValue : Json :=
  .obj [("tasks", .arr
      [.obj [("slug", .str "a"), ("displayName", .str "A"),
        ("outcomes", .arr [.str "done", .str "again", .str "revise"])]]),
    ("patterns", .arr
      [.obj [("type", .str "retry"), ("tasks", .arr [.str "a"]),
        ("conditions", .arr
          [.obj [("sourceTask", .str "a"), ("targetTask", .str "a"), ("outcome", .str "again")],
            .obj [("sourceTask", .str "a"), ("targetTask", .str "a"),
              ("outcome", .str "revise")]])]])]

/-- The two transitions of the task of `blocked` to itself share one sentry, which lets no outcome
through. -/
theorem layOut_reenters_blocked :
    Logic.parse blockedValue = .ok blocked ∧ (blocked.loops "a").length = 2 ∧
      ∃ d routed, layOut .alternating blocked = .ok d ∧ route blocked d = .ok routed ∧
        ∃ sentries, Table.get? ("a" : Text) routed = some sentries ∧
          ¬blocked.Separates "a" sentries ∧
          ∃ s, sentries.filter (·.kind = .selfLoop) = [s] ∧
            ∀ outcome, ¬Expression.Admits s.condition outcome := by
  have hparse : Logic.parse blockedValue = .ok blocked := by rfl
  have hloops : blocked.loops "a" =
      [⟨"a", "a", some { source := "a", target := "a", outcome := "again" }⟩,
        ⟨"a", "a", some { source := "a", target := "a", outcome := "revise" }⟩] := by
    decide +kernel
  obtain ⟨d, routed, hd, hrouted, hall⟩ := layOut_reenters hparse .alternating
  obtain ⟨-, sentries, hget, hreenters⟩ := hall "a" List.mem_cons_self
  have hlength : (blocked.loops "a").length = 2 := by rw [hloops]; rfl
  obtain ⟨s, hs, -⟩ := hreenters.one (List.ne_nil_of_length_pos (by omega))
  have hown : s ∈ sentries.filter (·.kind = .selfLoop) := hs ▸ List.mem_singleton_self s
  obtain ⟨hmem, hkind⟩ : s ∈ sentries ∧ s.kind = .selfLoop := by simpa using hown
  refine ⟨hparse, hlength, d, routed, hd, hrouted, sentries, hget, ?_, s, hs,
    fun outcome hadmits => ?_⟩
  · rw [hreenters.separates_iff]
    omega
  · -- the outcome would have to be both of those that are declared
    rw [hreenters.admits_iff (by rw [hloops]; decide) s hmem hkind, hloops] at hadmits
    have hagain : outcome = "again" := hadmits _ List.mem_cons_self _ rfl
    have hrevise : outcome = "revise" :=
      hadmits _ (List.mem_cons_of_mem _ List.mem_cons_self) _ rfl
    exact absurd (hagain.symm.trans hrevise) (by decide)

end CasePlan
