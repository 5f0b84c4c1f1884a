import CasePlan.Proofs.Logic.Transition
import CasePlan.Proofs.Text.Cutting

/-!
# What acceptance promises

`Logic.Consistent` follows the steps of the validation.  This file says what it comes to, in terms
of the accepted description alone: `Logic.Valid` speaks of tasks instead of look-ups, of all texts
of a description at once, and of all outcomes that a gate may be asked to compare with, those of
implied approvals included.

* `Logic.texts`, `Logic.outcomes`: what the promises about characters range over.
* `Consistent.isXmlText_of_mem_texts`, `Consistent.isOutcome_of_mem_outcomes`: these promises.
* `valid_of_accepted`: whatever is accepted, as data, as text or as bytes, is valid.
-/

namespace CasePlan

open Validation

/-! ## The texts of a description -/

/-- Slug, name, outcomes and the optional texts of a task. -/
def Task.texts (t : Task) : List Text :=
  [t.slug, t.displayName] ++ t.outcomes ++ t.assignee.toList ++ t.candidateGroups.toList ++
    t.dueDate.toList ++ t.formKey.toList

/-- Slug and name of a stage. -/
def Stage.texts (s : Stage) : List Text := [s.slug, s.displayName]

/-- The outcomes that a pattern's conditions ask for. -/
def Pattern.outcomes (p : Pattern) : List Text := p.conditions.map (·.outcome)

namespace Logic

/-- The texts of tasks and stages, and the outcomes in conditions. -/
def texts (logic : Logic) : List Text :=
  logic.tasks.flatMap (·.texts) ++ logic.stages.flatMap (·.texts) ++
    logic.patterns.flatMap (·.outcomes)

/-- The outcomes that tasks declare, that conditions ask for, and that transitions ask for.  The
last ones hold those of implied approvals. -/
def outcomes (logic : Logic) : List Text :=
  logic.tasks.flatMap (·.outcomes) ++ logic.patterns.flatMap (·.outcomes) ++
    (logic.transitions.filterMap (·.condition)).map (·.outcome)

/-- What acceptance promises. -/
structure Valid (logic : Logic) : Prop where
  /-- There is a task. -/
  tasks_ne_nil : logic.tasks ≠ []
  /-- Slugs of tasks are used once. -/
  nodup_taskSlugs : (logic.tasks.map (·.slug)).Nodup
  /-- Slugs of stages are used once. -/
  nodup_stageSlugs : (logic.stages.map (·.slug)).Nodup
  /-- No stage has the slug of a task. -/
  disjoint_slugs : ∀ s ∈ logic.stages, ∀ t ∈ logic.tasks, s.slug ≠ t.slug
  /-- Every stage has members. -/
  stage_ne_nil : ∀ s ∈ logic.stages, s.members ≠ []
  /-- Members of stages are tasks. -/
  stage_members : ∀ s ∈ logic.stages, ∀ m ∈ s.members, ∃ t ∈ logic.tasks, t.slug = m
  /-- No task is in two stages, or in one twice. -/
  nodup_members : (logic.stages.flatMap (·.members)).Nodup
  /-- Every pattern has members. -/
  pattern_ne_nil : ∀ p ∈ logic.patterns, p.members ≠ []
  /-- Members of patterns are tasks. -/
  pattern_members : ∀ p ∈ logic.patterns, ∀ m ∈ p.members, ∃ t ∈ logic.tasks, t.slug = m
  /-- Conditions lead from a task to a task. -/
  condition_ends : ∀ p ∈ logic.patterns, ∀ c ∈ p.conditions,
    (∃ t ∈ logic.tasks, t.slug = c.source) ∧ ∃ t ∈ logic.tasks, t.slug = c.target
  /-- XML can carry every character of every text. -/
  isXmlChar : ∀ t ∈ logic.texts, ∀ c ∈ t, Text.isXmlChar c = true
  /-- No outcome holds the end mark of a CDATA section. -/
  noSectionEnd : ∀ o ∈ logic.outcomes, ¬ sectionEnd <:+: o
  /-- No outcome is blank. -/
  notBlank : ∀ o ∈ logic.outcomes, ∃ c ∈ o, Text.isBlank c = false
  /-- Limits let a task be done at least once. -/
  limits : ∀ t ∈ logic.tasks, ∀ n ∈ t.repetitionLimit, 1 ≤ n

end Logic

/-! ## From the parts to the whole -/

theorem IsOutcome.not_isInfix {o : Text} (h : IsOutcome o) : ¬ sectionEnd <:+: o := by
  rw [← Text.contains_eq_true_iff, h.noSectionEnd]
  exact Bool.false_ne_true

theorem IsLabel.exists_notBlank {t : Text} (h : IsLabel t) : ∃ c ∈ t, Text.isBlank c = false := by
  obtain ⟨c, hc, hblank⟩ := List.any_eq_true.1 h.hasContent
  exact ⟨c, hc, by simpa using hblank⟩

theorem Task.Sound.isXmlText_of_mem_texts {t : Task} (h : t.Sound) :
    ∀ s ∈ t.texts, s.isXmlText = true := by
  intro s hs
  simp only [Task.texts, List.mem_append, List.mem_cons, List.not_mem_nil, or_false,
    Option.mem_toList] at hs
  rcases hs with ((((((rfl | rfl) | hs) | hs) | hs) | hs) | hs)
  · exact h.slug.isXmlText
  · exact h.displayName.isXmlText
  · exact (h.outcomes s hs).isXmlText
  · exact h.assignee s hs
  · exact h.candidateGroups s hs
  · exact h.dueDate s hs
  · exact h.formKey s hs

theorem Stage.Sound.isXmlText_of_mem_texts {slugs : List Text} {s : Stage} (h : s.Sound slugs) :
    ∀ t ∈ s.texts, t.isXmlText = true := by
  simp only [Stage.texts, List.mem_cons, List.not_mem_nil, or_false, forall_eq_or_imp, forall_eq]
  exact ⟨h.slug.isXmlText, h.displayName⟩

theorem Pattern.Sound.isOutcome_of_mem_outcomes {slugs : List Text} {p : Pattern}
    (h : p.Sound slugs) : ∀ o ∈ p.outcomes, IsOutcome o :=
  List.forall_mem_map.2 h.outcomes

namespace Logic

variable {logic : Logic}

/-- XML can carry the texts of a consistent description. -/
theorem Consistent.isXmlText_of_mem_texts (hc : logic.Consistent) :
    ∀ t ∈ logic.texts, t.isXmlText = true := by
  intro t ht
  rw [texts, List.mem_append, List.mem_append] at ht
  rcases ht with (ht | ht) | ht
  · obtain ⟨task, htask, ht⟩ := List.mem_flatMap.1 ht
    exact (hc.task task htask).isXmlText_of_mem_texts t ht
  · obtain ⟨stage, hstage, ht⟩ := List.mem_flatMap.1 ht
    exact (hc.stage stage hstage).isXmlText_of_mem_texts t ht
  · obtain ⟨p, hp, ht⟩ := List.mem_flatMap.1 ht
    exact ((hc.pattern p hp).isOutcome_of_mem_outcomes t ht).isXmlText

/-- All outcomes of a consistent description may stand in CDATA sections. -/
theorem Consistent.isOutcome_of_mem_outcomes (hc : logic.Consistent) :
    ∀ o ∈ logic.outcomes, IsOutcome o := by
  intro o ho
  rw [outcomes, List.mem_append, List.mem_append] at ho
  rcases ho with (ho | ho) | ho
  · obtain ⟨t, ht, ho⟩ := List.mem_flatMap.1 ho
    exact (hc.task t ht).outcomes o ho
  · obtain ⟨p, hp, ho⟩ := List.mem_flatMap.1 ho
    exact (hc.pattern p hp).isOutcome_of_mem_outcomes o ho
  · obtain ⟨c, hc', rfl⟩ := List.mem_map.1 ho
    obtain ⟨t, ht, hcond⟩ := List.mem_filterMap.1 hc'
    exact hc.isOutcome_of_transition ht hcond

theorem Consistent.valid (hc : logic.Consistent) : logic.Valid where
  tasks_ne_nil := hc.tasks_ne_nil
  nodup_taskSlugs := hc.nodup_slugs
  nodup_stageSlugs := hc.nodup_stages
  disjoint_slugs s hs _ ht he := (hc.stage s hs).slug_notMem (mem_slugs.2 ⟨_, ht, he.symm⟩)
  stage_ne_nil s hs := (hc.stage s hs).members_ne_nil
  stage_members s hs m hm := mem_slugs.1 ((hc.stage s hs).members_subset m hm)
  nodup_members := hc.nodup_members
  pattern_ne_nil p hp := (hc.pattern p hp).members_ne_nil
  pattern_members p hp m hm := mem_slugs.1 ((hc.pattern p hp).members_subset m hm)
  condition_ends p hp c hcond :=
    ⟨mem_slugs.1 ((hc.pattern p hp).sources c hcond),
      mem_slugs.1 ((hc.pattern p hp).targets c hcond)⟩
  isXmlChar t ht := List.all_eq_true.1 (hc.isXmlText_of_mem_texts t ht)
  noSectionEnd o ho := (hc.isOutcome_of_mem_outcomes o ho).not_isInfix
  notBlank o ho := (hc.isOutcome_of_mem_outcomes o ho).exists_notBlank
  limits t ht := (hc.task t ht).repetitionLimit

/-- What comes out of bytes comes out of the text that they encode. -/
theorem exists_parse_of_parseBytes {bytes : List UInt8} (h : parseBytes bytes = .ok logic) :
    ∃ t, Utf8.decode? bytes = .ok t ∧ parse (.str t) = .ok logic := by
  unfold parseBytes at h
  split at h
  · cases h
  · next t ht => exact ⟨t, ht, h⟩

/-- Whatever is accepted is valid, whether it came as data, as text or as bytes. -/
theorem valid_of_accepted
    (h : (∃ raw, parse raw = .ok logic) ∨ ∃ bytes, parseBytes bytes = .ok logic) :
    logic.Valid := by
  rcases h with ⟨raw, h⟩ | ⟨bytes, h⟩
  · exact (consistent_of_parse h).valid
  · obtain ⟨t, -, h⟩ := exists_parse_of_parseBytes h
    exact (consistent_of_parse h).valid

/-- The sample is accepted. -/
theorem valid_sample : parse sampleValue = .ok sample ∧ sample.Valid :=
  ⟨parse_sampleValue, valid_of_accepted (.inl ⟨sampleValue, parse_sampleValue⟩)⟩

end Logic

end CasePlan
