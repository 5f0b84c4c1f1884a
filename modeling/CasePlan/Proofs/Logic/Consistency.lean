import CasePlan.Proofs.Logic.Groups

/-!
# What every accepted description satisfies

The later steps look slugs up and write texts without asking again.  What they rely on is
`Logic.Consistent`: slugs are used once, stages share no members, everything that stages, patterns
and conditions name is a task, and every text can stand where it is written.

* `consistent_of_parse`: whatever is parsed is consistent.
* `accept_eq_ok_iff`: a value is accepted exactly if it holds a consistent description.
-/

namespace CasePlan

open Validation

namespace Logic

/-- The slugs of the tasks, in order. -/
def slugs (logic : Logic) : List Text := logic.tasks.map (·.slug)

/-- What every step after the acceptance of a description relies on. -/
structure Consistent (logic : Logic) : Prop where
  /-- There is a task. -/
  tasks_ne_nil : logic.tasks ≠ []
  /-- Slugs of tasks are used once. -/
  nodup_slugs : logic.slugs.Nodup
  /-- The texts of tasks can stand where they are written. -/
  task : ∀ t ∈ logic.tasks, t.Sound
  /-- Slugs of stages are used once. -/
  nodup_stages : (logic.stages.map (·.slug)).Nodup
  /-- No task is in two stages, or in one twice. -/
  nodup_members : (logic.stages.flatMap (·.members)).Nodup
  /-- Stages hold tasks, and their texts can stand where they are written. -/
  stage : ∀ s ∈ logic.stages, s.Sound logic.slugs
  /-- Patterns and their conditions name tasks. -/
  pattern : ∀ p ∈ logic.patterns, p.Sound logic.slugs

end Logic

/-- A value is an object that the description is read from. -/
structure Logic.HeldBy (logic : Logic) (v : Json) : Prop where
  /-- It is an object. -/
  isObject : ∃ members, v = .obj members
  /-- It holds the tasks. -/
  tasks : ∃ vs, v.getD "tasks" = .arr vs ∧ List.Forall₂ (fun v t => Task.HeldBy t v) vs logic.tasks
  /-- It holds the stages, unless there are none. -/
  stages : (v.getD "stages" = .null ∧ logic.stages = []) ∨
    ∃ vs, v.getD "stages" = .arr vs ∧ List.Forall₂ (fun v s => Stage.HeldBy s v) vs logic.stages
  /-- It holds the patterns, unless there are none. -/
  patterns : (v.getD "patterns" = .null ∧ logic.patterns = []) ∨
    ∃ vs, v.getD "patterns" = .arr vs ∧
      List.Forall₂ (fun v p => Pattern.HeldBy logic.slugs p v) vs logic.patterns

/-! ## Stages from drafts -/

/-- Drafts and the stages that they become have the same slugs. -/
theorem map_slug_of_becomes {ds : List StageDraft} {ss : List Stage}
    (h : List.Forall₂ StageDraft.Becomes ds ss) :
    ds.map (·.slug) = ss.map (·.slug) := by
  induction h with
  | nil => rfl
  | cons hd _ ih => rw [List.map_cons, List.map_cons, hd.1, ih]

/-- Drafts and the stages that they become have the same members. -/
theorem flatMap_members_of_becomes {ds : List StageDraft} {ss : List Stage}
    (h : List.Forall₂ StageDraft.Becomes ds ss) :
    ds.flatMap (·.members) = ss.flatMap (·.members) := by
  induction h with
  | nil => rfl
  | cons hd _ ih => rw [List.flatMap_cons, List.flatMap_cons, hd.2.2, ih]

/-- The stage of a draft that is read is sound and read from the same value. -/
theorem stage_of_draft {slugs : List Text} {d : StageDraft} {s : Stage} {v : Json}
    (hd : DraftHeldBy slugs d v) (h : d.Becomes s) : s.HeldBy v ∧ s.Sound slugs := by
  obtain ⟨hslug, hname, hms⟩ := h
  have hread := hd.name_eq
  rw [hslug, hname] at hread
  obtain ⟨hne, hx⟩ := acceptStageName_eq_ok_some (hslug ▸ hd.slug) hread
  exact ⟨⟨hd.isObject, hslug ▸ hd.slug_eq, hms ▸ hd.members_eq, hread⟩,
    ⟨hslug ▸ hd.slug, hslug ▸ hd.slug_notMem, hne, hx, hms ▸ hd.members_ne_nil,
      hms ▸ hd.members_subset⟩⟩

/-- The draft of a sound stage. -/
def Stage.draft (s : Stage) : StageDraft := ⟨s.slug, some s.displayName, s.members⟩

theorem Stage.draft_heldBy {slugs : List Text} {s : Stage} {v : Json} (held : s.HeldBy v)
    (sound : s.Sound slugs) : DraftHeldBy slugs s.draft v :=
  ⟨held.isObject, held.slug, held.members, held.displayName, sound.slug, sound.slug_notMem,
    sound.members_ne_nil, sound.members_subset⟩

theorem becomes_draft (ss : List Stage) :
    List.Forall₂ StageDraft.Becomes (ss.map Stage.draft) ss := by
  induction ss with
  | nil => exact .nil
  | cons s ss ih => exact .cons ⟨rfl, rfl, rfl⟩ ih

/-! ## The whole description -/

/-- The stages of a description, if any, are read from first to last, and every one gets a name. -/
theorem acceptStages_finish_eq_ok_iff {slugs : List Text} {v : Json} {ss : List Stage} :
    (∃ ds, acceptStages slugs v = .ok ds ∧ finishStages 0 ds = .ok ss) ↔
      ((v = .null ∧ ss = []) ∨
        ∃ vs, v = .arr vs ∧ List.Forall₂ (fun v s => Stage.HeldBy s v) vs ss) ∧
      (∀ s ∈ ss, s.Sound slugs) ∧ (ss.map (·.slug)).Nodup ∧ (ss.flatMap (·.members)).Nodup := by
  constructor
  · rintro ⟨ds, hds, hss⟩
    have hbecomes := finishStages_eq_ok_iff.1 hss
    unfold acceptStages at hds
    split at hds
    · obtain rfl := Except.ok.inj hds
      cases hbecomes
      simp
    · next vs =>
      obtain ⟨hall, hnd, -, hms, -⟩ := acceptStagesFrom_eq_ok_iff.1 hds
      have hboth : List.Forall₂ (fun v s => Stage.HeldBy s v ∧ s.Sound slugs) vs ss := by
        clear hds hss hnd hms
        induction hall generalizing ss with
        | nil => cases hbecomes; exact .nil
        | cons hd _ ih =>
          cases hbecomes with
          | cons hb hrest => exact .cons (stage_of_draft hd hb) (ih hrest)
      refine ⟨.inr ⟨vs, rfl, hboth.imp fun _ _ h => h.1⟩, fun s hs => ?_, ?_, ?_⟩
      · obtain ⟨v, -, hv⟩ := exists_mem_left_of_forall₂ hboth hs
        exact hv.2
      · rwa [← map_slug_of_becomes hbecomes]
      · rwa [← flatMap_members_of_becomes hbecomes]
    · simp at hds
  · rintro ⟨h, hsound, hnd, hms⟩
    refine ⟨ss.map Stage.draft, ?_, finishStages_eq_ok_iff.2 (becomes_draft ss)⟩
    rcases h with ⟨rfl, rfl⟩ | ⟨vs, rfl, hall⟩
    · rfl
    · refine acceptStagesFrom_eq_ok_iff.2 ⟨?_, ?_, by simp, ?_, by simp⟩
      · clear hnd hms
        induction hall with
        | nil => exact .nil
        | cons held _ ih =>
          exact .cons (Stage.draft_heldBy held (hsound _ (by simp)))
            (ih fun s hs => hsound s (by simp [hs]))
      · rwa [map_slug_of_becomes (becomes_draft ss)]
      · rwa [flatMap_members_of_becomes (becomes_draft ss)]

theorem acceptPatterns_eq_ok_iff {slugs : List Text} {v : Json} {ps : List Pattern} :
    acceptPatterns slugs v = .ok ps ↔
      ((v = .null ∧ ps = []) ∨
        ∃ vs, v = .arr vs ∧ List.Forall₂ (fun v p => Pattern.HeldBy slugs p v) vs ps) ∧
      ∀ p ∈ ps, p.Sound slugs := by
  unfold acceptPatterns
  split
  · simp only [Except.ok.injEq, reduceCtorEq, false_and, exists_false, or_false, true_and]
    constructor
    · rintro rfl
      simp
    · rintro ⟨rfl, -⟩
      rfl
  · next vs =>
    rw [acceptPatternsFrom_eq_ok_iff]
    constructor
    · intro h
      refine ⟨.inr ⟨vs, rfl, h.imp fun _ _ h => h.1⟩, fun p hp => ?_⟩
      obtain ⟨v, -, hv⟩ := exists_mem_left_of_forall₂ h hp
      exact hv.1.sound hv.2.1 hv.2.2
    · rintro ⟨h, hsound⟩
      obtain ⟨hnull, -⟩ | ⟨_, hvs, hall⟩ := h
      · exact absurd hnull (by simp)
      obtain rfl := Json.arr.inj hvs
      clear hvs
      induction hall with
      | nil => exact .nil
      | cons held _ ih =>
        have hp := hsound _ (List.mem_cons_self ..)
        exact .cons ⟨held, hp.members_ne_nil, hp.members_subset⟩
          (ih fun p hp => hsound p (by simp [hp]))
  · next hnull harr =>
    simp only [reduceCtorEq, false_iff]
    rintro ⟨⟨rfl, -⟩ | ⟨vs, rfl, -⟩, -⟩
    · exact hnull rfl
    · exact harr vs rfl

/-- The objects that hold some sound tasks. -/
theorem tasks_heldBy_iff {vs : List Json} {ts : List Task} :
    List.Forall₂ (fun v t => Task.HeldBy t v ∧ t.Sound) vs ts ↔
      List.Forall₂ (fun v t => Task.HeldBy t v) vs ts ∧ ∀ t ∈ ts, t.Sound := by
  constructor
  · intro h
    refine ⟨h.imp fun _ _ h => h.1, fun t ht => ?_⟩
    obtain ⟨v, -, hv⟩ := exists_mem_left_of_forall₂ h ht
    exact hv.2
  · rintro ⟨h, hsound⟩
    induction h with
    | nil => exact .nil
    | cons held _ ih =>
      exact .cons ⟨held, hsound _ (by simp)⟩ (ih fun t ht => hsound t (by simp [ht]))

/-- A value is accepted exactly if it holds a consistent description. -/
theorem accept_eq_ok_iff {v : Json} {logic : Logic} :
    Logic.accept v = .ok logic ↔ logic.HeldBy v ∧ logic.Consistent := by
  unfold Logic.accept
  split
  · next members =>
    simp only [bind_eq_ok_iff, mapError_eq_ok_iff, acceptTasks_eq_ok_iff, tasks_heldBy_iff,
      acceptPatterns_eq_ok_iff, pure_eq_ok_iff]
    constructor
    · rintro ⟨tasks, ⟨⟨vs, hvs, held, sound⟩, hne, hnd⟩, drafts, hdrafts, patterns,
        ⟨hpatterns, psound⟩, stages, hstages, rfl⟩
      obtain ⟨hheld, ssound, hslugs, hmembers⟩ :=
        acceptStages_finish_eq_ok_iff.1 ⟨drafts, hdrafts, hstages⟩
      exact ⟨⟨⟨members, rfl⟩, ⟨vs, hvs, held⟩, hheld, hpatterns⟩,
        ⟨hne, hnd, sound, hslugs, hmembers, ssound, psound⟩⟩
    · rintro ⟨held, hc⟩
      obtain ⟨vs, hvs, htasks⟩ := held.tasks
      obtain ⟨drafts, hdrafts, hstages⟩ := acceptStages_finish_eq_ok_iff.2
        ⟨held.stages, hc.stage, hc.nodup_stages, hc.nodup_members⟩
      exact ⟨_, ⟨⟨vs, hvs, htasks, hc.task⟩, hc.tasks_ne_nil, hc.nodup_slugs⟩, drafts, hdrafts,
        _, ⟨held.patterns, hc.pattern⟩, _, hstages, rfl⟩
  · next hv =>
    simp only [reduceCtorEq, false_iff]
    rintro ⟨held, -⟩
    obtain ⟨members, rfl⟩ := held.isObject
    exact hv members rfl

/-- Whatever is parsed is consistent. -/
theorem consistent_of_parse {v : Json} {logic : Logic} (h : Logic.parse v = .ok logic) :
    logic.Consistent := by
  unfold Logic.parse at h
  split at h
  · unfold Logic.parseText at h
    split at h
    · simp at h
    · exact (accept_eq_ok_iff.1 h).2
  · exact (accept_eq_ok_iff.1 h).2

/-! ## An accepted description -/

namespace Logic

/-- A description whose second task is in a stage and may be done again. -/
def sample : Logic where
  tasks := [{ slug := "draft", displayName := "Draft", outcomes := ["done"] },
    { slug := "review", displayName := "Review", outcomes := ["accepted", "again"] }]
  patterns :=
    [⟨.sequential, ["draft", "review"],
      [{ source := "review", target := "review", outcome := "again" }]⟩]
  stages := [{ slug := "check", displayName := "Check", members := ["review"] }]

/-- The value that holds `sample`. -/
def sampleValue : Json :=
  .obj [("tasks", .arr
      [.obj [("slug", .str "draft"), ("displayName", .str "Draft"),
          ("outcomes", .arr [.str "done"])],
        .obj [("slug", .str "review"), ("displayName", .str "Review"),
          ("outcomes", .arr [.str "accepted", .str "again"])]]),
    ("patterns", .arr
      [.obj [("type", .str "sequential"), ("tasks", .arr [.str "draft", .str "review"]),
        ("conditions", .arr [.obj [("sourceTask", .str "review"), ("targetTask", .str "review"),
          ("outcome", .str "again")]])]]),
    ("stages", .arr [.obj [("slug", .str "check"), ("displayName", .str "Check"),
      ("tasks", .arr [.str "review"])]])]

theorem parse_sampleValue : parse sampleValue = .ok sample := by
  rfl

end Logic

end CasePlan
