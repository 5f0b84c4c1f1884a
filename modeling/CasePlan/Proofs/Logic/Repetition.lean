import CasePlan.Proofs.Logic.Expansion

/-!
# Tasks that may be done again

A task may be done again if it declares so, if a retry pattern opens it again, or if it leads to
itself.  A retry pattern compares the places at which the ends of a condition stand last; in a
pattern that names no task twice these are the only ones.

* `Pattern.FirstAt`, `Pattern.LastAt`: the places of a task in a pattern.
* `Logic.Reopens`: a retry pattern leads back to a task.
* `mem_repeatable_iff`: which tasks may be done again.
* `reopens_firstAt_iff`: first and last places are the same if no task is named twice.
* `transitions_withPattern`, `repeatable_withPattern`: a pattern that is there already adds nothing.
-/

namespace CasePlan

/-! ## Places of members -/

namespace Pattern

/-- A task stands first at a place. -/
def FirstAt (p : Pattern) (slug : Text) (i : Nat) : Prop :=
  p.members[i]? = some slug ∧ ∀ j, p.members[j]? = some slug → i ≤ j

/-- A task stands last at a place. -/
def LastAt (p : Pattern) (slug : Text) (i : Nat) : Prop :=
  p.members[i]? = some slug ∧ ∀ j, p.members[j]? = some slug → j ≤ i

variable {p : Pattern} {slug : Text} {i : Nat}

/-- The place that is found for a task is the last one. -/
theorem place?_eq_some_iff : p.place? slug = some i ↔ p.LastAt slug i := by
  have hreverse : ∀ k < p.members.length,
      p.members.reverse[k]? = p.members[p.members.length - 1 - k]? :=
    fun _ hk => List.getElem?_reverse hk
  rw [place?, Option.map_eq_some_iff]
  simp only [idxOf?_eq_some_iff_getElem?]
  constructor
  · rintro ⟨k, ⟨hget, hfirst⟩, rfl⟩
    have hk : k < p.members.length := by
      rw [← List.length_reverse]
      exact (List.getElem?_eq_some_iff.1 hget).1
    refine ⟨(hreverse k hk).symm.trans hget, fun j hj => ?_⟩
    -- seen from the end, the task does not stand before place `k`
    have hjlt := (List.getElem?_eq_some_iff.1 hj).1
    by_contra hlater
    refine hfirst (p.members.length - 1 - j) (by omega) ?_
    rw [hreverse _ (by omega), show p.members.length - 1 - (p.members.length - 1 - j) = j by omega]
    exact hj
  · rintro ⟨hget, hlast⟩
    have hlt := (List.getElem?_eq_some_iff.1 hget).1
    refine ⟨p.members.length - 1 - i, ⟨?_, fun j hj hother => ?_⟩, by omega⟩
    · rw [hreverse _ (by omega), show p.members.length - 1 - (p.members.length - 1 - i) = i by omega]
      exact hget
    · have hle := hlast _ ((hreverse j (by omega)).symm.trans hother)
      omega

/-- A condition leads back if its target does not stand last after its source. -/
theorem leadsBack_iff {c : Condition} :
    p.leadsBack c = true ↔ ∃ i j, p.LastAt c.target i ∧ p.LastAt c.source j ∧ i ≤ j := by
  simp only [← place?_eq_some_iff]
  unfold leadsBack
  split
  · next s t hs ht =>
    rw [decide_eq_true_eq]
    constructor
    · exact fun h => ⟨t, s, ht, hs, h⟩
    · rintro ⟨i, j, hi, hj, hle⟩
      rwa [Option.some.inj (ht.symm.trans hi), Option.some.inj (hs.symm.trans hj)]
  · next hnone =>
    refine iff_of_false Bool.false_ne_true ?_
    rintro ⟨i, j, hi, hj, -⟩
    exact hnone j i hj hi

/-- A member that is not named twice stands first where it stands last. -/
theorem firstAt_iff_lastAt (hnd : p.members.Nodup) : p.FirstAt slug i ↔ p.LastAt slug i := by
  have hsame : ∀ {j k : Nat}, p.members[j]? = some slug → p.members[k]? = some slug → j = k := by
    intro j k hj hk
    exact (List.getElem?_inj (List.getElem?_eq_some_iff.1 hj).1 hnd).1 (hj.trans hk.symm)
  constructor
  · exact fun h => ⟨h.1, fun _ hj => Nat.le_of_eq (hsame hj h.1)⟩
  · exact fun h => ⟨h.1, fun _ hj => Nat.le_of_eq (hsame h.1 hj)⟩

end Pattern

/-! ## Which tasks may be done again -/

namespace Logic

/-- A retry pattern has a condition on a task whose source stands, by the given places, where the
task stands or after it. -/
def Reopens (logic : Logic) (At : Pattern → Text → Nat → Prop) (slug : Text) : Prop :=
  ∃ p ∈ logic.patterns, p.kind = .retry ∧ ∃ c ∈ p.conditions, c.target = slug ∧
    ∃ i j, At p c.target i ∧ At p c.source j ∧ i ≤ j

/-- Adds a slug that is not there yet. -/
def addNew (slugs : List Text) (slug : Text) : List Text :=
  if slug ∈ slugs then slugs else slugs ++ [slug]

variable {logic : Logic} {slug : Text}

theorem mem_foldl_addNew {more slugs : List Text} :
    slug ∈ more.foldl addNew slugs ↔ slug ∈ slugs ∨ slug ∈ more := by
  induction more generalizing slugs with
  | nil => simp
  | cons other more ih =>
    rw [List.foldl_cons, ih, List.mem_cons, addNew]
    split
    · next hmem =>
      constructor
      · exact Or.imp_right .inr
      · rintro (h | rfl | h)
        · exact .inl h
        · exact .inl hmem
        · exact .inr h
    · rw [List.mem_append, List.mem_singleton, or_assoc]

theorem foldl_addNew_of_subset {more slugs : List Text} (h : ∀ slug ∈ more, slug ∈ slugs) :
    more.foldl addNew slugs = slugs := by
  induction more with
  | nil => rfl
  | cons other more ih =>
    rw [List.foldl_cons, addNew, if_pos (h other List.mem_cons_self)]
    exact ih fun slug hslug => h slug (List.mem_cons_of_mem _ hslug)

/-- A retry pattern opens a task again if it has a condition on it that leads back. -/
theorem mem_reopened_iff : slug ∈ logic.patterns.flatMap Pattern.reopened ↔
    logic.Reopens Pattern.LastAt slug := by
  have hreopened : ∀ p : Pattern, slug ∈ p.reopened ↔ p.kind = .retry ∧
      ∃ c ∈ p.conditions, c.target = slug ∧ p.leadsBack c = true := by
    intro p
    unfold Pattern.reopened
    split
    · next hk =>
      rw [and_iff_right hk, List.mem_map]
      simp only [List.mem_filter, and_assoc, and_comm (a := _ = slug)]
    · next hk => exact iff_of_false List.not_mem_nil fun h => hk h.1
  rw [List.mem_flatMap]
  simp only [hreopened, Pattern.leadsBack_iff]
  rfl

/-- The tasks that may be done again. -/
theorem mem_repeatable_iff : slug ∈ logic.repeatable ↔
    (∃ t ∈ logic.tasks, t.slug = slug ∧ ∃ limit, t.repetitionLimit = some limit ∧ 1 < limit) ∨
      logic.Reopens Pattern.LastAt slug ∨
      ∃ t ∈ logic.transitions, t.target = slug ∧ t.source = slug := by
  have hdeclares : ∀ t : Task, declaresRepetition t = true ↔
      ∃ limit, t.repetitionLimit = some limit ∧ 1 < limit := by
    intro t
    unfold declaresRepetition
    cases t.repetitionLimit with
    | none => simp
    | some limit => simp
  have hfold : slug ∈ logic.repeatable ↔
      slug ∈ (logic.tasks.filter declaresRepetition).map (·.slug) ∨
        slug ∈ logic.patterns.flatMap Pattern.reopened ++
          (logic.transitions.filter Transition.isSelfLoop).map Transition.target :=
    mem_foldl_addNew
  rw [hfold, List.mem_append, mem_reopened_iff, List.mem_map, List.mem_map]
  simp only [List.mem_filter, hdeclares, Transition.isSelfLoop, decide_eq_true_eq]
  refine or_congr (exists_congr fun t => ?_) (or_congr_right (exists_congr fun t => ?_))
  · rw [and_assoc, and_comm (b := t.slug = slug)]
  · constructor
    · rintro ⟨⟨ht, hloop⟩, rfl⟩
      exact ⟨ht, rfl, hloop⟩
    · rintro ⟨ht, rfl, hloop⟩
      exact ⟨⟨ht, hloop⟩, rfl⟩

/-- First and last places lead back to the same tasks if no retry pattern names a task twice. -/
theorem reopens_firstAt_iff (h : ∀ p ∈ logic.patterns, p.kind = .retry → p.members.Nodup) :
    logic.Reopens Pattern.FirstAt slug ↔ logic.Reopens Pattern.LastAt slug := by
  refine exists_congr fun p => and_congr_right fun hp => and_congr_right fun hk => ?_
  simp only [Pattern.firstAt_iff_lastAt (h p hp hk)]

/-! ## A pattern that is there already -/

/-- A description with another pattern at the end. -/
def withPattern (logic : Logic) (p : Pattern) : Logic :=
  { logic with patterns := logic.patterns ++ [p] }

variable {p : Pattern}

theorem transitions_withPattern (hp : p ∈ logic.patterns) :
    (logic.withPattern p).transitions = logic.transitions := by
  have hall : (logic.withPattern p).patterns.flatMap (·.transitions logic.task?) =
      logic.patterns.flatMap (·.transitions logic.task?) ++ p.transitions logic.task? := by
    rw [withPattern, List.flatMap_append, List.flatMap_singleton]
  show ((logic.withPattern p).patterns.flatMap (·.transitions logic.task?)).eraseDups = _
  rw [hall]
  exact eraseDups_append_of_subset fun t ht => List.mem_flatMap.2 ⟨p, hp, ht⟩

theorem repeatable_withPattern (hp : p ∈ logic.patterns) :
    (logic.withPattern p).repeatable = logic.repeatable := by
  -- what the pattern opens again was opened by its first copy
  have hreopened : ∀ slugs,
      (logic.patterns.flatMap Pattern.reopened ++ p.reopened).foldl addNew slugs =
        (logic.patterns.flatMap Pattern.reopened).foldl addNew slugs := by
    intro slugs
    rw [List.foldl_append]
    exact foldl_addNew_of_subset fun slug hslug =>
      mem_foldl_addNew.2 (.inr (List.mem_flatMap.2 ⟨p, hp, hslug⟩))
  have hfold : ∀ logic : Logic, logic.repeatable =
      ((logic.transitions.filter Transition.isSelfLoop).map Transition.target).foldl addNew
        ((logic.patterns.flatMap Pattern.reopened).foldl addNew
          ((logic.tasks.filter declaresRepetition).map (·.slug))) :=
    fun logic => List.foldl_append
  have hall : (logic.withPattern p).patterns.flatMap Pattern.reopened =
      logic.patterns.flatMap Pattern.reopened ++ p.reopened := by
    rw [withPattern, List.flatMap_append, List.flatMap_singleton]
  rw [hfold, hfold, transitions_withPattern hp, hall, hreopened]
  rfl

theorem unknownApprover?_withPattern (hp : p ∈ logic.patterns) :
    (logic.withPattern p).unknownApprover? = logic.unknownApprover? := by
  have happend : ∀ unknown? : Pattern → Option Text,
      (logic.patterns ++ [p]).findSome? unknown? = logic.patterns.findSome? unknown? := by
    intro unknown?
    rw [List.findSome?_append]
    cases h : logic.patterns.findSome? unknown? with
    | some slug => rfl
    | none =>
      rw [Option.none_or, List.findSome?_singleton]
      exact List.findSome?_eq_none_iff.1 h p hp
  exact happend _

end Logic

end CasePlan
