import CasePlan.Inspection.Extraction
import CasePlan.Proofs.Distinct
import CasePlan.Proofs.Inspection.Reach
import CasePlan.Proofs.Logic.Failure

/-!
# Which found tasks make a description

The tasks that an inspection finds are handed to the validation as data.  That data hold one
description, and the validation accepts it or rejects it.

* `FoundTask.asTask`, `Stage.ofFound`, `Logic.ofFound`: that description.
* `heldBy_taskData_iff`, `heldBy_stageData_iff`, `heldBy_logicData_iff`: the data hold nothing else.
* `Describable`: what has to hold of tasks for the description to be accepted.
  `accept_logicData_iff`: it is accepted exactly if that holds.
* `exists_rejection`: otherwise it is rejected for a reason.
-/

namespace CasePlan

open Validation Inspection

/-- A list that goes through a function item by item. -/
theorem forall₂_eq_and_iff {α β : Type} {f : α → β} {p : α → Prop} {xs : List α} {ys : List β} :
    List.Forall₂ (fun x y => y = f x ∧ p x) xs ys ↔ ys = xs.map f ∧ ∀ x ∈ xs, p x := by
  induction xs generalizing ys with
  | nil =>
    rw [List.forall₂_nil_left_iff]
    simp
  | cons x xs ih =>
    rw [List.forall₂_cons_left_iff, List.map_cons, List.forall_mem_cons]
    constructor
    · rintro ⟨y, rest, ⟨rfl, hx⟩, hrest, rfl⟩
      obtain ⟨rfl, hxs⟩ := ih.1 hrest
      exact ⟨rfl, hx, hxs⟩
    · rintro ⟨rfl, hx, hxs⟩
      exact ⟨_, _, ⟨rfl, hx⟩, ih.2 ⟨rfl, hxs⟩, rfl⟩

theorem Json.ofText?_inj {a b : Option Text} : Json.ofText? a = Json.ofText? b ↔ a = b := by
  cases a <;> cases b <;> simp [Json.ofText?]

theorem ofLimit?_inj {a b : Option Int} : ofLimit? a = ofLimit? b ↔ a = b := by
  cases a <;> cases b <;> simp [ofLimit?]

/-- The pattern in which some tasks follow one another; one task alone has none. -/
def Pattern.chain (slugs : List Text) : List Pattern :=
  if 1 < slugs.length then [⟨.sequential, slugs, []⟩] else []

/-! ## The description that the data hold -/

/-- A found task as a task of a description, with those of its outcomes that are texts. -/
def FoundTask.asTask (t : FoundTask) : Task where
  slug := t.slug
  displayName := t.name
  outcomes := t.outcomes.filterMap Json.text?
  assignee := filled t.assignee
  candidateGroups := filled t.candidateGroups
  dueDate := filled t.dueDate
  formKey := filled t.formKey

/-- The name that the first task of a stage gives it, if it gives one. -/
def stageName? (tasks : List FoundTask) (slug : Text) : Option Text :=
  ((tasks.filter fun t => t.stage = some slug).head?).bind (·.stageName)

/-- The stage with a slug in which some tasks are found. -/
def Stage.ofFound (tasks : List FoundTask) (slug : Text) : Stage where
  slug := slug
  displayName := (filled (stageName? tasks slug)).getD slug
  members := (tasks.filter fun t => t.stage = some slug).map (·.slug)

/-- The description that found tasks make. -/
def Logic.ofFound (tasks : List FoundTask) : Logic where
  tasks := tasks.map (·.asTask)
  patterns := Pattern.chain (tasks.map (·.slug))
  stages := (stageSlugs tasks).map (Stage.ofFound tasks)

namespace Inspection

variable {tasks : List FoundTask}

/-- What the data of a found task hold besides slug, name and outcomes. -/
theorem getD_taskData (t : FoundTask) :
    (taskData t).getD "assignee" = Json.ofText? t.asTask.assignee ∧
      (taskData t).getD "candidateGroups" = Json.ofText? t.asTask.candidateGroups ∧
      (taskData t).getD "dueDate" = Json.ofText? t.asTask.dueDate ∧
      (taskData t).getD "formKey" = Json.ofText? t.asTask.formKey ∧
      (taskData t).getD "repetitionLimit" = ofLimit? t.asTask.repetitionLimit := by
  simp only [taskData, FoundTask.asTask]
  cases filled t.assignee <;> cases filled t.candidateGroups <;> cases filled t.dueDate <;>
    cases filled t.formKey
  all_goals exact ⟨rfl, rfl, rfl, rfl, rfl⟩

/-- The data of a found task hold one task, if all outcomes are texts. -/
theorem heldBy_taskData_iff {t : FoundTask} {u : Task} :
    u.HeldBy (taskData t) ↔ u = t.asTask ∧ t.outcomes = t.asTask.outcomes.map .str := by
  obtain ⟨hassignee, hgroups, hdue, hform, hlimit⟩ := getD_taskData t
  constructor
  · intro held
    have houtcomes : t.outcomes = u.outcomes.map .str := Json.arr.inj held.outcomes
    have hkept : t.asTask.outcomes = u.outcomes := by
      rw [FoundTask.asTask, houtcomes, List.filterMap_map]
      exact List.filterMap_some
    have hslug : t.asTask.slug = u.slug := Json.str.inj held.slug
    have hname : t.asTask.displayName = u.displayName := Json.str.inj held.displayName
    have ha := Json.ofText?_inj.1 (hassignee.symm.trans held.assignee)
    have hg := Json.ofText?_inj.1 (hgroups.symm.trans held.candidateGroups)
    have hd := Json.ofText?_inj.1 (hdue.symm.trans held.dueDate)
    have hf := Json.ofText?_inj.1 (hform.symm.trans held.formKey)
    have hl : none = u.repetitionLimit := ofLimit?_inj.1 (hlimit.symm.trans held.repetitionLimit)
    refine ⟨?_, by rw [hkept]; exact houtcomes⟩
    obtain ⟨slug, name, outcomes, assignee, groups, due, form, limit⟩ := u
    dsimp only at hslug hname hkept ha hg hd hf hl
    subst hslug hname hkept ha hg hd hf hl
    rfl
  · rintro ⟨rfl, houtcomes⟩
    refine ⟨⟨_, rfl⟩, rfl, rfl, ?_, hassignee, hgroups, hdue, hform, hlimit⟩
    rw [← houtcomes]
    rfl

/-- A name that is absent or empty is read as the slug. -/
theorem acceptStageName_ofText? (slug : Text) (name? : Option Text) :
    acceptStageName slug (Json.ofText? name?) =
      (checkXml "displayName" ((filled name?).getD slug)).map fun _ =>
        some ((filled name?).getD slug) := by
  rcases name? with _ | _ | ⟨c, rest⟩ <;> rfl

/-- The data of a stage hold one stage, if XML can carry its name. -/
theorem heldBy_stageData_iff {slug : Text} {s : Stage} :
    s.HeldBy (stageData tasks slug) ↔
      s = Stage.ofFound tasks slug ∧ (Stage.ofFound tasks slug).displayName.isXmlText = true := by
  have hname : (stageData tasks slug).getD "displayName" = Json.ofText? (stageName? tasks slug) := by
    simp only [stageData, stageName?]
    cases ((tasks.filter fun t => t.stage = some slug).head?).bind (·.stageName) <;> rfl
  have hmembers : (stageData tasks slug).getD "tasks" =
      .arr ((Stage.ofFound tasks slug).members.map .str) := by
    rw [Stage.ofFound, List.map_map]
    rfl
  have hread : acceptStageName slug ((stageData tasks slug).getD "displayName") =
      (checkXml "displayName" (Stage.ofFound tasks slug).displayName).map fun _ =>
        some (Stage.ofFound tasks slug).displayName := by
    rw [hname, acceptStageName_ofText?]
    rfl
  constructor
  · intro held
    have hslug : slug = s.slug := Json.str.inj held.slug
    have hms : (Stage.ofFound tasks slug).members = s.members :=
      List.map_injective_iff.2 (fun _ _ h => Json.str.inj h)
        (Json.arr.inj (hmembers.symm.trans held.members))
    have hn := held.displayName
    rw [← hslug, hread, map_eq_ok_iff] at hn
    obtain ⟨_, hx, hn⟩ := hn
    refine ⟨?_, checkXml_eq_ok_iff.1 hx⟩
    obtain ⟨own, display, members⟩ := s
    dsimp only at hslug hms hn
    obtain rfl := Option.some.inj hn
    subst hslug hms
    rfl
  · rintro ⟨rfl, hx⟩
    refine ⟨⟨_, rfl⟩, rfl, hmembers, ?_⟩
    have hn : acceptStageName (Stage.ofFound tasks slug).slug
        ((stageData tasks slug).getD "displayName") = _ := hread
    rw [hn, map_eq_ok_iff]
    exact ⟨(), checkXml_eq_ok_iff.2 hx, rfl⟩

/-- The data of a chain hold one pattern. -/
theorem heldBy_chain_iff {slugs members : List Text} {p : Pattern} :
    p.HeldBy slugs (.obj [("type", .str "sequential"), ("tasks", .arr (members.map .str))]) ↔
      p = ⟨.sequential, members, []⟩ := by
  constructor
  · intro held
    have hkind : PatternKind.sequential = p.kind := Option.some.inj held.kind
    have hms : members = p.members :=
      List.map_injective_iff.2 (fun _ _ h => Json.str.inj h) (Json.arr.inj held.members)
    have hnone : p.conditions = [] := by
      rcases held.conditions with ⟨-, h⟩ | ⟨vs, hvs, -⟩
      · exact h
      · exact Json.noConfusion hvs
    obtain ⟨kind, own, conditions⟩ := p
    dsimp only at hkind hms hnone
    subst hkind hms hnone
    rfl
  · rintro rfl
    exact ⟨⟨_, rfl⟩, rfl, rfl, .inl ⟨rfl, rfl⟩⟩

theorem forall₂_taskData_iff {ts : List Task} :
    List.Forall₂ (fun v t => Task.HeldBy t v) (tasks.map taskData) ts ↔
      ts = tasks.map (·.asTask) ∧ ∀ t ∈ tasks, t.outcomes = t.asTask.outcomes.map .str := by
  rw [List.forall₂_map_left_iff, ← forall₂_eq_and_iff]
  simp only [heldBy_taskData_iff]

theorem forall₂_stageData_iff {ss : List Stage} :
    List.Forall₂ (fun v s => Stage.HeldBy s v) ((stageSlugs tasks).map (stageData tasks)) ss ↔
      ss = (stageSlugs tasks).map (Stage.ofFound tasks) ∧
        ∀ slug ∈ stageSlugs tasks, (Stage.ofFound tasks slug).displayName.isXmlText = true := by
  rw [List.forall₂_map_left_iff, ← forall₂_eq_and_iff]
  simp only [heldBy_stageData_iff]

/-- The patterns in the data of found tasks. -/
def chainData (tasks : List FoundTask) : List Json :=
  if 1 < tasks.length then
    [.obj [("type", .str "sequential"), ("tasks", .arr (tasks.map (.str ·.slug)))]]
  else []

theorem forall₂_chainData_iff {slugs : List Text} {ps : List Pattern} :
    List.Forall₂ (fun v p => Pattern.HeldBy slugs p v) (chainData tasks) ps ↔
      ps = Pattern.chain (tasks.map (·.slug)) := by
  have hmembers : tasks.map (Json.str ·.slug) = (tasks.map (·.slug)).map .str := by
    rw [List.map_map]
    rfl
  rw [chainData, Pattern.chain, List.length_map, hmembers]
  split
  · constructor
    · rintro (_ | ⟨hp, ⟨⟩⟩)
      rw [heldBy_chain_iff.1 hp]
    · rintro rfl
      exact .cons (heldBy_chain_iff.2 rfl) .nil
  · rw [List.forall₂_nil_left_iff]

/-- The data of found tasks hold one description, if all outcomes are texts and XML can carry the
names of stages. -/
theorem heldBy_logicData_iff {logic : Logic} :
    logic.HeldBy (logicData tasks) ↔ logic = Logic.ofFound tasks ∧
      (∀ t ∈ tasks, t.outcomes = t.asTask.outcomes.map .str) ∧
      ∀ slug ∈ stageSlugs tasks, (Stage.ofFound tasks slug).displayName.isXmlText = true := by
  have htasks : (logicData tasks).getD "tasks" = .arr (tasks.map taskData) := rfl
  have hpatterns : (logicData tasks).getD "patterns" = .arr (chainData tasks) := rfl
  have hstages : (logicData tasks).getD "stages" =
      .arr ((stageSlugs tasks).map (stageData tasks)) := rfl
  constructor
  · intro held
    obtain ⟨ws, hws, hts⟩ := held.tasks
    obtain rfl := Json.arr.inj (htasks.symm.trans hws)
    obtain ⟨ws, hws, hps⟩ := held.patterns.resolve_left fun h =>
      Json.noConfusion (hpatterns.symm.trans h.1)
    obtain rfl := Json.arr.inj (hpatterns.symm.trans hws)
    obtain ⟨ws, hws, hss⟩ := held.stages.resolve_left fun h =>
      Json.noConfusion (hstages.symm.trans h.1)
    obtain rfl := Json.arr.inj (hstages.symm.trans hws)
    obtain ⟨hts, houtcomes⟩ := forall₂_taskData_iff.1 hts
    obtain ⟨hss, hnames⟩ := forall₂_stageData_iff.1 hss
    have hps := forall₂_chainData_iff.1 hps
    refine ⟨?_, houtcomes, hnames⟩
    rw [Logic.ofFound, ← hts, ← hps, ← hss]
  · rintro ⟨rfl, houtcomes, hnames⟩
    exact ⟨⟨_, rfl⟩, ⟨_, htasks, forall₂_taskData_iff.2 ⟨rfl, houtcomes⟩⟩,
      .inr ⟨_, hstages, forall₂_stageData_iff.2 ⟨rfl, hnames⟩⟩,
      .inr ⟨_, hpatterns, forall₂_chainData_iff.2 rfl⟩⟩

end Inspection

/-! ## What has to hold of the tasks -/

/-- What has to hold of a found task to be one of a description. -/
structure FoundTask.Describable (t : FoundTask) : Prop where
  /-- Its slug is a label. -/
  slug : IsLabel t.slug
  /-- Its name is a label. -/
  name : IsLabel t.name
  /-- Its outcomes are texts that may stand in CDATA sections. -/
  outcomes : ∀ o ∈ t.outcomes, ∃ s, o = .str s ∧ IsOutcome s
  /-- XML can carry its optional texts. -/
  texts : ∀ v ∈ [t.assignee, t.candidateGroups, t.dueDate, t.formKey], ∀ s ∈ filled v,
    s.isXmlText = true

/-- What has to hold of found tasks to make a description. -/
structure Describable (tasks : List FoundTask) : Prop where
  /-- No two tasks have one slug. -/
  nodup : (tasks.map (·.slug)).Nodup
  /-- Every task can be one of a description. -/
  task : ∀ t ∈ tasks, t.Describable
  /-- Slugs of stages are labels. -/
  stage : ∀ slug ∈ stageSlugs tasks, IsLabel slug
  /-- No stage has the slug of a task. -/
  disjoint : ∀ slug ∈ stageSlugs tasks, slug ∉ tasks.map (·.slug)
  /-- XML can carry the names of stages. -/
  stageName : ∀ slug ∈ stageSlugs tasks, (Stage.ofFound tasks slug).displayName.isXmlText = true

variable {tasks : List FoundTask}

theorem Logic.slugs_ofFound (tasks : List FoundTask) :
    (Logic.ofFound tasks).slugs = tasks.map (·.slug) := by
  rw [Logic.slugs, Logic.ofFound, List.map_map]
  rfl

/-- Values that are all texts that may stand in CDATA sections. -/
theorem areOutcomes_iff {os : List Json} :
    (os = (os.filterMap Json.text?).map .str ∧ ∀ s ∈ os.filterMap Json.text?, IsOutcome s) ↔
      ∀ o ∈ os, ∃ s, o = .str s ∧ IsOutcome s := by
  constructor
  · rintro ⟨heq, hall⟩ o ho
    rw [heq] at ho
    obtain ⟨s, hs, rfl⟩ := List.mem_map.1 ho
    exact ⟨s, rfl, hall s hs⟩
  · intro h
    induction os with
    | nil => exact ⟨rfl, by simp⟩
    | cons o os ih =>
      rw [List.forall_mem_cons] at h
      obtain ⟨⟨s, rfl, hs⟩, hrest⟩ := h
      obtain ⟨heq, hall⟩ := ih hrest
      have hcons : (Json.str s :: os).filterMap Json.text? = s :: os.filterMap Json.text? := rfl
      rw [hcons, List.map_cons, ← heq]
      exact ⟨rfl, List.forall_mem_cons.2 ⟨hs, hall⟩⟩

/-- A found task makes a sound task exactly if it is describable. -/
theorem FoundTask.describable_iff {t : FoundTask} (hne : t.outcomes ≠ []) :
    t.Describable ↔ t.outcomes = t.asTask.outcomes.map .str ∧ t.asTask.Sound := by
  constructor
  · intro h
    obtain ⟨heq, houtcomes⟩ := areOutcomes_iff.2 h.outcomes
    have heq : t.outcomes = t.asTask.outcomes.map .str := heq
    have hsome : t.asTask.outcomes ≠ [] := by
      intro hnil
      rw [hnil] at heq
      exact hne heq
    exact ⟨heq, h.slug, h.name, hsome, houtcomes, h.texts _ (by simp), h.texts _ (by simp),
      h.texts _ (by simp), h.texts _ (by simp), by simp [asTask]⟩
  · rintro ⟨heq, sound⟩
    refine ⟨sound.slug, sound.displayName, areOutcomes_iff.1 ⟨heq, sound.outcomes⟩, ?_⟩
    simp only [List.mem_cons, List.not_mem_nil, or_false, forall_eq_or_imp, forall_eq]
    exact ⟨sound.assignee, sound.candidateGroups, sound.dueDate, sound.formKey⟩

theorem filled_getD_ne_nil {value : Option Text} {otherwise : Text} (h : otherwise ≠ []) :
    (filled value).getD otherwise ≠ [] := by
  rcases value with _ | _ | ⟨c, rest⟩
  · exact h
  · exact h
  · exact List.cons_ne_nil _ _

theorem mem_stageSlugs {slug : Text} :
    slug ∈ stageSlugs tasks ↔ slug ≠ [] ∧ ∃ t ∈ tasks, t.stage = some slug := by
  rw [stageSlugs, List.mem_eraseDups, List.mem_filterMap]
  constructor
  · rintro ⟨t, ht, hstage⟩
    obtain ⟨hmem, hfilled⟩ := Option.filter_eq_some_iff.1 hstage
    exact ⟨by rintro rfl; exact absurd hfilled (by decide), t, ht, hmem⟩
  · rintro ⟨hne, t, ht, hstage⟩
    refine ⟨t, ht, Option.filter_eq_some_iff.2 ⟨hstage, ?_⟩⟩
    simpa using hne

/-- The tasks of different stages are different. -/
theorem nodup_members_ofFound (hnd : (tasks.map (·.slug)).Nodup) :
    ((Logic.ofFound tasks).stages.flatMap (·.members)).Nodup := by
  rw [Logic.ofFound, List.flatMap_map, List.nodup_flatMap]
  refine ⟨fun slug _ => hnd.sublist (List.filter_sublist.map _), ?_⟩
  refine (nodup_eraseDups _).pairwise_of_forall_ne fun slug _ slug' _ hne x hx hx' => hne ?_
  obtain ⟨t, ht, rfl⟩ := List.mem_map.1 hx
  obtain ⟨t', ht', hslug⟩ := List.mem_map.1 hx'
  obtain ⟨ht, hstage⟩ := List.mem_filter.1 ht
  obtain ⟨ht', hstage'⟩ := List.mem_filter.1 ht'
  obtain rfl := List.inj_on_of_nodup_map hnd ht ht' hslug.symm
  have hsame := (of_decide_eq_true hstage).symm.trans (of_decide_eq_true hstage')
  exact Option.some.inj hsame

theorem Describable.consistent (h : Describable tasks) (hne : tasks ≠ [])
    (houtcomes : ∀ t ∈ tasks, t.outcomes ≠ []) : (Logic.ofFound tasks).Consistent := by
  have hslugs := Logic.slugs_ofFound tasks
  have hstages : (Logic.ofFound tasks).stages.map (·.slug) = stageSlugs tasks := by
    rw [Logic.ofFound, List.map_map]
    exact List.map_id _
  constructor
  case tasks_ne_nil => exact fun hnil => hne (List.map_eq_nil_iff.1 hnil)
  case nodup_slugs => exact hslugs ▸ h.nodup
  case task =>
    rw [Logic.ofFound, List.forall_mem_map]
    exact fun t ht => ((FoundTask.describable_iff (houtcomes t ht)).1 (h.task t ht)).2
  case nodup_stages =>
    rw [hstages]
    exact nodup_eraseDups _
  case nodup_members => exact nodup_members_ofFound h.nodup
  case stage =>
    rw [hslugs, Logic.ofFound, List.forall_mem_map]
    intro slug hslug
    obtain ⟨hfilled, t, ht, hstage⟩ := mem_stageSlugs.1 hslug
    have hmember : t.slug ∈ (Stage.ofFound tasks slug).members :=
      List.mem_map_of_mem (List.mem_filter.2 ⟨ht, decide_eq_true hstage⟩)
    refine ⟨h.stage slug hslug, h.disjoint slug hslug, ?_, h.stageName slug hslug,
      List.ne_nil_of_mem hmember, ?_⟩
    · exact filled_getD_ne_nil hfilled
    · exact fun m hm => (List.filter_sublist.map _).subset hm
  case pattern =>
    intro p hp
    rw [Logic.ofFound, Pattern.chain] at hp
    split at hp
    · next hlength =>
      obtain rfl := List.mem_singleton.1 hp
      have hmembers : tasks.map (·.slug) ≠ [] := fun hnil => hne (List.map_eq_nil_iff.1 hnil)
      rw [hslugs]
      exact ⟨hmembers, fun m hm => hm, by simp, by simp, by simp⟩
    · exact absurd hp List.not_mem_nil

/-- The description that found tasks make is accepted exactly if they are describable. -/
theorem accept_logicData_iff (hne : tasks ≠ []) (houtcomes : ∀ t ∈ tasks, t.outcomes ≠ [])
    {logic : Logic} :
    Logic.accept (logicData tasks) = .ok logic ↔ Describable tasks ∧ logic = Logic.ofFound tasks := by
  rw [accept_eq_ok_iff, heldBy_logicData_iff]
  constructor
  · rintro ⟨⟨rfl, htexts, hnames⟩, hc⟩
    have hstage := fun slug (hslug : slug ∈ stageSlugs tasks) =>
      hc.stage (Stage.ofFound tasks slug) (List.mem_map_of_mem hslug)
    rw [Logic.slugs_ofFound] at hstage
    refine ⟨⟨Logic.slugs_ofFound tasks ▸ hc.nodup_slugs, fun t ht => ?_,
      fun slug hslug => (hstage slug hslug).slug, fun slug hslug => (hstage slug hslug).slug_notMem,
      hnames⟩, rfl⟩
    exact (FoundTask.describable_iff (houtcomes t ht)).2
      ⟨htexts t ht, hc.task _ (List.mem_map_of_mem ht)⟩
  · rintro ⟨h, rfl⟩
    refine ⟨⟨rfl, fun t ht => ?_, h.stageName⟩, h.consistent hne houtcomes⟩
    exact ((FoundTask.describable_iff (houtcomes t ht)).1 (h.task t ht)).1

/-- Texts can be looked up. -/
theorem not_failsAfter_map_str {before slugs : List Text} {e : ParseError} :
    ¬FailsAfter before (slugs.map .str) e := by
  rintro ⟨v, rest, hvs, hfails⟩
  have hmem : v ∈ slugs.map Json.str := by
    rw [hvs]
    exact List.mem_append_right _ List.mem_cons_self
  obtain ⟨slug, -, rfl⟩ := List.mem_map.1 hmem
  cases hfails

/-- The data of found tasks name members by texts, so no lookup fails. -/
theorem not_fails_logicData {e : ParseError} : ¬Logic.Fails (logicData tasks) e := by
  rintro (⟨-, -, hstages, -, hfails⟩ | ⟨-, -, -, hpatterns, -, hfails⟩)
  · have hitem : _ ∈ (stageSlugs tasks).map (stageData tasks) :=
      Json.arr.inj hstages ▸ List.mem_append_right _ List.mem_cons_self
    obtain ⟨slug, -, rfl⟩ := List.mem_map.1 hitem
    obtain ⟨vs, before, hvs, hafter, -⟩ := hfails.members
    have hslugs : (stageData tasks slug).getD "tasks" =
        .arr ((Stage.ofFound tasks slug).members.map .str) := by
      rw [Stage.ofFound, List.map_map]
      rfl
    obtain rfl := Json.arr.inj (hslugs.symm.trans hvs)
    exact not_failsAfter_map_str hafter
  · have hitem : _ ∈ chainData tasks :=
      Json.arr.inj hpatterns ▸ List.mem_append_right _ List.mem_cons_self
    rw [chainData] at hitem
    split at hitem
    · obtain rfl := List.mem_singleton.1 hitem
      obtain ⟨vs, before, hvs, hafter, -⟩ := hfails.members
      have hslugs : tasks.map (Json.str ·.slug) = (tasks.map (·.slug)).map .str := by
        rw [List.map_map]
        rfl
      obtain rfl : tasks.map (Json.str ·.slug) = vs := Json.arr.inj hvs
      rw [hslugs] at hafter
      exact not_failsAfter_map_str hafter
    · exact absurd hitem List.not_mem_nil

/-- What is not accepted is rejected for a reason. -/
theorem exists_rejection {e : ParseError} (h : Logic.parse (logicData tasks) = .error e) :
    ∃ reason, e = .rejected reason := by
  have hnone : ¬∃ v e, Logic.ReadFrom (logicData tasks) v ∧ Logic.Fails v e := by
    rintro ⟨v, e, ⟨-⟩ | -, hfails⟩
    exact not_fails_logicData hfails
  rcases (Logic.parse_due_iff _).2 hnone with ⟨logic, hok⟩ | ⟨reason, he⟩
  · rw [h] at hok
    cases hok
  · exact ⟨reason, Except.error.inj (h.symm.trans he)⟩

/-! ## Extraction -/

/-- An extraction ends as it promises: with a description, or with errors in the document. -/
def Settles (document : Text) : Prop :=
  (∃ logic, extract document = .ok logic) ∨ ∃ errors, extract document = .error (.structural errors)

/-- What comes of an extraction from a document that is reported on. -/
structure Extracted (document : Text) (report : Report) : Prop where
  /-- It ends as promised exactly if there are errors, or no tasks, or tasks that make a
  description. -/
  settles_iff : Settles document ↔
    report.isValid = false ∨ report.tasks = [] ∨ Describable report.tasks
  /-- Errors are handed on. -/
  invalid : report.isValid = false → extract document = .error (.structural report.errors)
  /-- Without tasks there is no description. -/
  empty : report.isValid = true → report.tasks = [] →
    extract document = .error (.structural ["Document defines no human tasks"])
  /-- Tasks that make a description are described. -/
  described : report.isValid = true → report.tasks ≠ [] → Describable report.tasks →
    extract document = .ok (Logic.ofFound report.tasks)
  /-- Other tasks are rejected. -/
  rejected : report.isValid = true → report.tasks ≠ [] → ¬Describable report.tasks →
    ∃ reason, extract document = .error (.description (.rejected reason))

theorem Report.toLogic_of_isValid {report : Report} (h : report.isValid = true)
    (hne : report.tasks ≠ []) :
    report.toLogic = (Logic.parse (logicData report.tasks)).mapError .description := by
  have hempty : report.tasks.isEmpty = false := List.isEmpty_eq_false_iff.2 hne
  rw [toLogic, h, hempty]
  rfl

/-- An extraction ends as promised, unless tasks are found that make no description. -/
theorem extract_extracted {document : Text} {report : Report} (h : inspect document = .ok report) :
    Extracted document report := by
  have hextract : extract document = report.toLogic := by rw [extract, h]
  have houtcomes := outcomes_ne_nil_of_inspect h
  have hinvalid : report.isValid = false → extract document = .error (.structural report.errors) := by
    intro hvalid
    rw [hextract, Report.toLogic, hvalid]
    rfl
  have hempty : report.isValid = true → report.tasks = [] →
      extract document = .error (.structural ["Document defines no human tasks"]) := by
    intro hvalid hnil
    rw [hextract, Report.toLogic, hvalid, hnil]
    rfl
  have hdescribed : report.isValid = true → report.tasks ≠ [] → Describable report.tasks →
      extract document = .ok (Logic.ofFound report.tasks) := by
    intro hvalid hne hdescribable
    have haccept : Logic.parse (logicData report.tasks) = .ok (Logic.ofFound report.tasks) :=
      (accept_logicData_iff hne houtcomes).2 ⟨hdescribable, rfl⟩
    rw [hextract, Report.toLogic_of_isValid hvalid hne, haccept]
    rfl
  have hrejected : report.isValid = true → report.tasks ≠ [] → ¬Describable report.tasks →
      ∃ reason, extract document = .error (.description (.rejected reason)) := by
    intro hvalid hne hnot
    rw [hextract, Report.toLogic_of_isValid hvalid hne]
    cases hparse : Logic.parse (logicData report.tasks) with
    | ok logic => exact absurd ((accept_logicData_iff hne houtcomes).1 hparse).1 hnot
    | error e =>
      obtain ⟨reason, rfl⟩ := exists_rejection hparse
      exact ⟨reason, rfl⟩
  refine ⟨⟨fun hsettles => ?_, ?_⟩, hinvalid, hempty, hdescribed, hrejected⟩
  · by_contra hnone
    rw [not_or, not_or, Bool.not_eq_false] at hnone
    obtain ⟨reason, hreason⟩ := hrejected hnone.1 hnone.2.1 hnone.2.2
    rcases hsettles with ⟨logic, hlogic⟩ | ⟨errors, herrors⟩
    · rw [hreason] at hlogic
      cases hlogic
    · rw [hreason] at herrors
      cases herrors
  · intro hcases
    cases hvalid : report.isValid with
    | false => exact .inr ⟨_, hinvalid hvalid⟩
    | true =>
      by_cases hne : report.tasks = []
      · exact .inr ⟨_, hempty hvalid hne⟩
      · rcases hcases with hfalse | hnil | hdescribable
        · exact absurd (hfalse.symm.trans hvalid) Bool.false_ne_true
        · exact absurd hnil hne
        · exact .inl ⟨_, hdescribed hvalid hne hdescribable⟩

/-- A document in which two plan items refer to one human task. -/
def sharedDefinition : Text :=
  "<definitions xmlns='" ++ Document.modelNamespace ++ "' xmlns:f='" ++ Document.engineNamespace ++
    "'>" ++ "<case><casePlanModel><stage>" ++ "<planItem definitionRef='a'/>" ++
    "<planItem definitionRef='a'/>" ++ "<humanTask id='a'/></stage>" ++ "</casePlanModel></case>" ++
    Document.requiredListeners.flatMap
      (fun listener => ("<f:x class='" ++ listener ++ "'/>" : Text)) ++
    "<CMMNDI xmlns='" ++ Document.diagramNamespace ++ "'/>" ++ "</definitions>"

/-- It is reported on, but the extraction does not end as promised. -/
theorem extract_extracted_shared : ∃ report, inspect sharedDefinition = .ok report ∧
    ¬Settles sharedDefinition := by
  have hfound : (match inspect sharedDefinition with
      | .ok report => report.isValid && decide (report.tasks.map (·.slug) = (["a", "a"] : List Text))
      | .error _ => false) = true := by decide +kernel
  cases hinspect : inspect sharedDefinition with
  | error e =>
    rw [hinspect] at hfound
    cases hfound
  | ok report =>
    rw [hinspect] at hfound
    obtain ⟨hvalid, hslugs⟩ := Bool.and_eq_true_iff.1 hfound
    have hslugs := of_decide_eq_true hslugs
    refine ⟨report, rfl, fun hsettles => ?_⟩
    rcases (extract_extracted hinspect).settles_iff.1 hsettles with hfalse | hnil | hdescribable
    · exact absurd (hfalse.symm.trans hvalid) Bool.false_ne_true
    · rw [hnil] at hslugs
      cases hslugs
    · have hnodup := hdescribable.nodup
      rw [hslugs] at hnodup
      exact absurd hnodup (by decide)

end CasePlan
