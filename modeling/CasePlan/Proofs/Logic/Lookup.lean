import CasePlan.Proofs.Logic.Consistency
import Mathlib.Data.List.Lattice
import Mathlib.Data.List.Nodup
import Mathlib.Data.List.Pairwise

/-!
# Looking up tasks and stages

In a consistent description a slug leads to one task and a task to at most one stage.

* `Consistent.task?_eq_some`, `Consistent.exists_task?`: every task is found by its slug.
* `Consistent.stageOf?_eq_some`, `stageOf?_eq_none_iff`: the stage found for a task is the one that
  has it among its members.
-/

namespace CasePlan

/-- Lists that share nothing with each other share an item only with themselves. -/
theorem eq_of_nodup_flatMap {α β : Type} {f : α → List β} {l : List α} (h : (l.flatMap f).Nodup)
    {x y : α} (hx : x ∈ l) (hy : y ∈ l) {b : β} (hbx : b ∈ f x) (hby : b ∈ f y) : x = y := by
  by_contra hne
  have hpair := (List.nodup_flatMap.1 h).2
  have : Std.Symm (Function.onFun List.Disjoint f) := ⟨fun _ _ h => List.Disjoint.symm h⟩
  exact hpair.forall hx hy hne hbx hby

namespace Logic

variable {logic : Logic}

theorem mem_slugs {slug : Text} : slug ∈ logic.slugs ↔ ∃ t ∈ logic.tasks, t.slug = slug := by
  rw [slugs, List.mem_map]

/-- A task is found by its slug. -/
theorem Consistent.task?_eq_some (hc : logic.Consistent) {t : Task} (ht : t ∈ logic.tasks) :
    logic.task? t.slug = some t := by
  unfold task?
  cases h : logic.tasks.reverse.find? (·.slug = t.slug) with
  | none => exact absurd (List.find?_eq_none.1 h t (by simpa using ht)) (by simp)
  | some u =>
    have hu : u ∈ logic.tasks := by simpa using List.mem_of_find?_eq_some h
    have hslug : u.slug = t.slug := by simpa using List.find?_some h
    rw [List.inj_on_of_nodup_map hc.nodup_slugs hu ht hslug]

theorem mem_of_task?_eq_some {slug : Text} {t : Task} (h : logic.task? slug = some t) :
    t ∈ logic.tasks ∧ t.slug = slug :=
  ⟨by simpa using List.mem_of_find?_eq_some h, by simpa using List.find?_some h⟩

theorem Consistent.exists_task? (hc : logic.Consistent) {slug : Text} (h : slug ∈ logic.slugs) :
    ∃ t ∈ logic.tasks, t.slug = slug ∧ logic.task? slug = some t := by
  obtain ⟨t, ht, rfl⟩ := mem_slugs.1 h
  exact ⟨t, ht, rfl, hc.task?_eq_some ht⟩

theorem mem_of_stageOf?_eq_some {slug : Text} {s : Stage} (h : logic.stageOf? slug = some s) :
    s ∈ logic.stages ∧ slug ∈ s.members :=
  ⟨List.mem_of_find?_eq_some h, by simpa using List.find?_some h⟩

theorem stageOf?_eq_none_iff {slug : Text} :
    logic.stageOf? slug = none ↔ ∀ s ∈ logic.stages, slug ∉ s.members := by
  simp [stageOf?, List.find?_eq_none]

/-- Every task has a place among the tasks. -/
theorem isSome_position? {slug : Text} (h : slug ∈ logic.slugs) :
    (logic.position? slug).isSome = true := by
  rw [position?, Option.isSome_map, List.isSome_idxOf?, List.map_reverse, List.mem_reverse]
  exact h

/-- A task that a stage names is in no other stage. -/
theorem Consistent.eq_of_mem_members (hc : logic.Consistent) {s s' : Stage} {slug : Text}
    (hs : s ∈ logic.stages) (hs' : s' ∈ logic.stages) (h : slug ∈ s.members)
    (h' : slug ∈ s'.members) : s = s' :=
  eq_of_nodup_flatMap hc.nodup_members hs hs' h h'

theorem Consistent.stageOf?_eq_some (hc : logic.Consistent) {s : Stage} {slug : Text}
    (hs : s ∈ logic.stages) (h : slug ∈ s.members) : logic.stageOf? slug = some s := by
  cases hf : logic.stageOf? slug with
  | none => exact absurd h (stageOf?_eq_none_iff.1 hf s hs)
  | some s' =>
    obtain ⟨hs', h'⟩ := mem_of_stageOf?_eq_some hf
    rw [hc.eq_of_mem_members hs' hs h' h]

end Logic

end CasePlan
