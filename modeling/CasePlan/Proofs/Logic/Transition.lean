import CasePlan.Proofs.Logic.Expansion

/-!
# Where transitions lead

In a consistent description every transition leads from a task to a task.

* `Consistent.ends_mem_slugs`: all transitions lead between tasks.
* `Consistent.isOutcome_of_transition`: they ask for outcomes that documents can carry.
* `Consistent.unknownApprover?_eq_none`: everyone in an approval chain has outcomes.
-/

namespace CasePlan

namespace Logic

variable {logic : Logic}

/-- Transitions lead from tasks to tasks. -/
theorem Consistent.ends_mem_slugs (hc : logic.Consistent) {t : Transition}
    (h : t ∈ logic.transitions) : t.source ∈ logic.slugs ∧ t.target ∈ logic.slugs := by
  obtain ⟨p, hp, h⟩ := mem_transitions.1 h
  have sound := hc.pattern p hp
  rcases Pattern.mem_transitions_iff.1 h with ⟨c, hmem, rfl⟩ | ⟨himplies, -, -⟩
  · exact ⟨sound.sources c hmem, sound.targets c hmem⟩
  · obtain ⟨hs, ht⟩ := himplies.mem_members
    exact ⟨sound.members_subset _ hs, sound.members_subset _ ht⟩

/-- The outcomes that transitions ask for may stand in CDATA sections. -/
theorem Consistent.isOutcome_of_transition (hc : logic.Consistent) {t : Transition}
    (h : t ∈ logic.transitions) {c : Condition} (hcond : c ∈ t.condition) :
    IsOutcome c.outcome := by
  obtain ⟨p, hp, h⟩ := mem_transitions.1 h
  rcases Pattern.mem_transitions_iff.1 h with ⟨d, hmem, rfl⟩ | ⟨-, -, hstep⟩
  · obtain rfl := Option.some.inj hcond
    exact (hc.pattern p hp).outcomes d hmem
  · rw [hstep] at hcond
    obtain ⟨task, htask, houtcome⟩ := Pattern.exists_outcome_of_step hcond
    exact (hc.task task (mem_of_task?_eq_some htask).1).outcomes _ houtcome

/-- Everyone in an approval chain is a task. -/
theorem Consistent.unknownApprover?_eq_none (hc : logic.Consistent) :
    logic.unknownApprover? = none := by
  rw [unknownApprover?, List.findSome?_eq_none_iff]
  intro p hp
  split
  · rw [List.find?_eq_none]
    intro slug hslug
    have hmem := (hc.pattern p hp).members_subset slug (List.dropLast_subset _ hslug)
    obtain ⟨u, -, -, hu⟩ := hc.exists_task? hmem
    simp [hu]
  · rfl

end Logic

end CasePlan
