import CasePlan.Logic.Validation
import CasePlan.Proofs.Result

/-!
# What the entries of a description are read from

Each reader of a member succeeds on exactly the values that write its result down: a label is a
text with content, an outcome may also stand in a CDATA section, an optional text may be absent.

* `IsLabel`, `IsOutcome`: what is asked of the texts of a description.
* `acceptLabel_eq_ok_iff`, `acceptOutcomes_eq_ok_iff`, `acceptOptional_eq_ok_iff`,
  `acceptLimit_eq_ok_iff`: which values the readers of members accept.
* `acceptTask_eq_ok_iff`: a task is read from exactly the objects that hold it (`Task.HeldBy`) if
  it is sound (`Task.Sound`) and its slug is new.
-/

namespace CasePlan

open Validation

/-- A text with content that XML can carry. -/
structure IsLabel (t : Text) : Prop where
  /-- It is not all blank. -/
  hasContent : t.hasContent = true
  /-- XML can carry it. -/
  isXmlText : t.isXmlText = true

/-- A label that may stand in a CDATA section. -/
structure IsOutcome (t : Text) : Prop extends IsLabel t where
  /-- It holds no end mark of a section. -/
  noSectionEnd : Text.contains sectionEnd t = false

theorem IsLabel.ne_nil {t : Text} (h : IsLabel t) : t ≠ [] := by
  rintro rfl
  exact absurd h.hasContent (by decide)

/-! ## Members -/

theorem label?_eq_some_iff {v : Json} {t : Text} :
    label? v = some t ↔ v = .str t ∧ t.hasContent = true := by
  cases v <;> simp [label?]
  constructor
  · rintro ⟨h, rfl⟩
    exact ⟨rfl, h⟩
  · rintro ⟨rfl, h⟩
    exact ⟨h, rfl⟩

@[simp] theorem checkXml_eq_ok_iff {field t : Text} {u : Unit} :
    checkXml field t = .ok u ↔ t.isXmlText = true := by
  cases u
  by_cases h : t.isXmlText <;> simp [checkXml, h]

theorem acceptLabel_eq_ok_iff {field t : Text} {v : Json} :
    acceptLabel field v = .ok t ↔ v = .str t ∧ IsLabel t := by
  rw [acceptLabel]
  cases h : label? v with
  | none =>
    simp only [reduceCtorEq, false_iff]
    rintro ⟨rfl, hl⟩
    rw [label?_eq_some_iff.2 ⟨rfl, hl.hasContent⟩] at h
    exact absurd h (by simp)
  | some s =>
    obtain ⟨rfl, hs⟩ := label?_eq_some_iff.1 h
    simp only [map_eq_ok_iff, checkXml_eq_ok_iff, exists_const_iff, Json.str.injEq]
    constructor
    · rintro ⟨-, hx, rfl⟩
      exact ⟨rfl, hs, hx⟩
    · rintro ⟨rfl, hl⟩
      exact ⟨⟨()⟩, hl.isXmlText, rfl⟩

theorem acceptLabels_eq_ok_iff {vs : List Json} {ts : List Text} :
    acceptLabels vs = .ok ts ↔ vs = ts.map .str ∧ ∀ t ∈ ts, t.hasContent = true := by
  induction vs generalizing ts with
  | nil =>
    simp only [acceptLabels, Except.ok.injEq]
    constructor
    · rintro rfl
      exact ⟨rfl, by simp⟩
    · rintro ⟨h, -⟩
      exact (List.map_eq_nil_iff.1 h.symm).symm
  | cons v vs ih =>
    rw [acceptLabels]
    cases h : label? v with
    | none =>
      simp only [reduceCtorEq, false_iff]
      rintro ⟨hts, hc⟩
      cases ts with
      | nil => simp at hts
      | cons t ts =>
        obtain ⟨rfl, -⟩ := List.cons.inj hts
        rw [label?_eq_some_iff.2 ⟨rfl, hc t (by simp)⟩] at h
        exact absurd h (by simp)
    | some s =>
      obtain ⟨rfl, hs⟩ := label?_eq_some_iff.1 h
      simp only [map_eq_ok_iff, ih]
      constructor
      · rintro ⟨rest, ⟨rfl, hrest⟩, rfl⟩
        exact ⟨rfl, by simpa using ⟨hs, hrest⟩⟩
      · rintro ⟨hts, hc⟩
        cases ts with
        | nil => simp at hts
        | cons t ts =>
          obtain ⟨hst, rfl⟩ := List.cons.inj hts
          obtain rfl := Json.str.inj hst
          exact ⟨ts, ⟨rfl, fun u hu => hc u (by simp [hu])⟩, rfl⟩

theorem checkOutcomes_eq_ok_iff {ts : List Text} {u : Unit} :
    checkOutcomes ts = .ok u ↔
      ∀ t ∈ ts, t.isXmlText = true ∧ Text.contains sectionEnd t = false := by
  cases u
  induction ts with
  | nil => simp [checkOutcomes]
  | cons t ts ih => simp [checkOutcomes, ih, and_assoc]

/-- Outcomes are read from exactly the arrays of texts that list them. -/
theorem acceptOutcomes_eq_ok_iff {v : Json} {ts : List Text} :
    acceptOutcomes v = .ok ts ↔ v = .arr (ts.map .str) ∧ ts ≠ [] ∧ ∀ t ∈ ts, IsOutcome t := by
  have key : ∀ x rest, (do
        let outcomes ← acceptLabels (x :: rest)
        checkOutcomes outcomes
        pure outcomes) = Except.ok ts ↔
      x :: rest = ts.map .str ∧ ∀ t ∈ ts, IsOutcome t := by
    intro x rest
    simp only [bind_eq_ok_iff, acceptLabels_eq_ok_iff, checkOutcomes_eq_ok_iff, pure_eq_ok_iff]
    constructor
    · rintro ⟨_, ⟨hts, hc⟩, -, ho, rfl⟩
      exact ⟨hts, fun t ht => ⟨⟨hc t ht, (ho t ht).1⟩, (ho t ht).2⟩⟩
    · rintro ⟨hts, ho⟩
      exact ⟨ts, ⟨hts, fun t ht => (ho t ht).hasContent⟩, (),
        fun t ht => ⟨(ho t ht).isXmlText, (ho t ht).noSectionEnd⟩, rfl⟩
  unfold acceptOutcomes
  split
  · next x rest =>
    rw [key, Json.arr.injEq]
    refine and_congr_right fun h => ⟨fun ho => ⟨?_, ho⟩, And.right⟩
    rintro rfl
    simp at h
  · next hv =>
    simp only [reduceCtorEq, false_iff]
    rintro ⟨rfl, hne, -⟩
    cases ts with
    | nil => exact hne rfl
    | cons t ts => exact hv _ _ rfl

theorem acceptOptional_eq_ok_iff {field : Text} {v : Json} {o : Option Text} :
    acceptOptional field v = .ok o ↔ v = Json.ofText? o ∧ ∀ t ∈ o, t.isXmlText = true := by
  cases v with
  | null => cases o <;> simp [acceptOptional, Json.ofText?]
  | str s =>
    cases o with
    | none => simp [acceptOptional, Json.ofText?]
    | some t =>
      simp only [acceptOptional, Json.ofText?, map_eq_ok_iff, checkXml_eq_ok_iff, Option.some.injEq,
        Json.str.injEq, Option.mem_def]
      constructor
      · rintro ⟨-, hx, rfl⟩
        exact ⟨rfl, by rintro u rfl; exact hx⟩
      · rintro ⟨rfl, hx⟩
        exact ⟨(), hx s rfl, rfl⟩
  | _ => cases o <;> simp [acceptOptional, Json.ofText?]

/-- A whole number as data, `null` if there is none. -/
def ofLimit? : Option Int → Json
  | some n => .int n
  | none => .null

theorem acceptLimit_eq_ok_iff {v : Json} {o : Option Int} :
    acceptLimit v = .ok o ↔ v = ofLimit? o ∧ ∀ n ∈ o, 1 ≤ n := by
  cases v with
  | null => cases o <;> simp [acceptLimit, ofLimit?]
  | int n =>
    cases o with
    | none => simp [acceptLimit, ofLimit?]
    | some m =>
      simp only [acceptLimit, ofLimit?, guard_eq_ok_iff, Except.ok.injEq, Option.some.injEq,
        Json.int.injEq, Option.mem_def, Int.not_lt]
      constructor
      · rintro ⟨hn, rfl⟩
        exact ⟨rfl, by rintro k rfl; exact hn⟩
      · rintro ⟨rfl, hn⟩
        exact ⟨hn n rfl, rfl⟩
  | _ => cases o <;> simp [acceptLimit, ofLimit?]

/-! ## Tasks -/

namespace Task

/-- What is asked of the texts and numbers of a task. -/
structure Sound (t : Task) : Prop where
  /-- Its slug is a label. -/
  slug : IsLabel t.slug
  /-- Its name is a label. -/
  displayName : IsLabel t.displayName
  /-- It has an outcome. -/
  outcomes_ne_nil : t.outcomes ≠ []
  /-- Its outcomes may stand in CDATA sections. -/
  outcomes : ∀ o ∈ t.outcomes, IsOutcome o
  /-- XML can carry who does it. -/
  assignee : ∀ s ∈ t.assignee, s.isXmlText = true
  /-- XML can carry its groups. -/
  candidateGroups : ∀ s ∈ t.candidateGroups, s.isXmlText = true
  /-- XML can carry when it is due. -/
  dueDate : ∀ s ∈ t.dueDate, s.isXmlText = true
  /-- XML can carry its form. -/
  formKey : ∀ s ∈ t.formKey, s.isXmlText = true
  /-- A limit that it declares lets it be done. -/
  repetitionLimit : ∀ n ∈ t.repetitionLimit, 1 ≤ n

/-- A value is an object that says what the task is. -/
structure HeldBy (t : Task) (v : Json) : Prop where
  /-- It is an object. -/
  isObject : ∃ members, v = .obj members
  /-- It holds the slug. -/
  slug : v.getD "slug" = .str t.slug
  /-- It holds the name. -/
  displayName : v.getD "displayName" = .str t.displayName
  /-- It holds the outcomes. -/
  outcomes : v.getD "outcomes" = .arr (t.outcomes.map .str)
  /-- It holds who does the task. -/
  assignee : v.getD "assignee" = Json.ofText? t.assignee
  /-- It holds the groups. -/
  candidateGroups : v.getD "candidateGroups" = Json.ofText? t.candidateGroups
  /-- It holds when the task is due. -/
  dueDate : v.getD "dueDate" = Json.ofText? t.dueDate
  /-- It holds the form. -/
  formKey : v.getD "formKey" = Json.ofText? t.formKey
  /-- It holds the limit. -/
  repetitionLimit : v.getD "repetitionLimit" = ofLimit? t.repetitionLimit

end Task

/-- A task is read from exactly the objects that hold it, if it is sound and its slug is new. -/
theorem acceptTask_eq_ok_iff {seen : List Text} {v : Json} {t : Task} :
    acceptTask seen v = .ok t ↔ t.HeldBy v ∧ t.Sound ∧ t.slug ∉ seen := by
  unfold acceptTask
  split
  · next members =>
    simp only [bind_eq_ok_iff, error_bind, guard_eq_ok_iff, pure_eq_ok_iff, acceptLabel_eq_ok_iff,
      acceptOutcomes_eq_ok_iff, acceptOptional_eq_ok_iff, acceptLimit_eq_ok_iff]
    constructor
    · rintro ⟨slug, ⟨hs, ls⟩, hseen, name, ⟨hn, ln⟩, outcomes, ⟨ho, ne, lo⟩, who, ⟨hw, lw⟩,
        groups, ⟨hg, lg⟩, due, ⟨hd, ld⟩, form, ⟨hf, lf⟩, limit, ⟨hl, ll⟩, rfl⟩
      exact ⟨⟨⟨members, rfl⟩, hs, hn, ho, hw, hg, hd, hf, hl⟩,
        ⟨ls, ln, ne, lo, lw, lg, ld, lf, ll⟩, hseen⟩
    · rintro ⟨held, sound, hseen⟩
      exact ⟨_, ⟨held.slug, sound.slug⟩, hseen, _, ⟨held.displayName, sound.displayName⟩,
        _, ⟨held.outcomes, sound.outcomes_ne_nil, sound.outcomes⟩,
        _, ⟨held.assignee, sound.assignee⟩, _, ⟨held.candidateGroups, sound.candidateGroups⟩,
        _, ⟨held.dueDate, sound.dueDate⟩, _, ⟨held.formKey, sound.formKey⟩,
        _, ⟨held.repetitionLimit, sound.repetitionLimit⟩, rfl⟩
  · next hv =>
    simp only [reduceCtorEq, false_iff]
    rintro ⟨held, -⟩
    obtain ⟨members, rfl⟩ := held.isObject
    exact hv members rfl

/-- Entries have different slugs, none of them taken, if the first is free and the others are when
its slug is taken as well. -/
theorem nodup_slugs_cons_iff {α : Type} {slug : α → Text} {taken : List Text} {x : α}
    {xs : List α} :
    (((x :: xs).map slug).Nodup ∧ ∀ y ∈ x :: xs, slug y ∉ taken) ↔
      slug x ∉ taken ∧ (xs.map slug).Nodup ∧ ∀ y ∈ xs, slug y ∉ slug x :: taken := by
  rw [List.map_cons, List.nodup_cons, List.forall_mem_cons]
  constructor
  · rintro ⟨⟨hfresh, hnd⟩, hx, hxs⟩
    refine ⟨hx, hnd, fun y hy h => ?_⟩
    rcases List.mem_cons.1 h with h | h
    · exact hfresh (h ▸ List.mem_map_of_mem hy)
    · exact hxs y hy h
  · rintro ⟨hx, hnd, hxs⟩
    refine ⟨⟨fun h => ?_, hnd⟩, hx, fun y hy h => hxs y hy (List.mem_cons_of_mem _ h)⟩
    obtain ⟨y, hy, heq⟩ := List.mem_map.1 h
    exact hxs y hy (heq ▸ List.mem_cons_self)

/-- Tasks are read from exactly the lists of objects that hold them, if they are sound and their
slugs are all different and new. -/
theorem acceptTasksFrom_eq_ok_iff {index : Nat} {seen : List Text} {vs : List Json}
    {ts : List Task} :
    acceptTasksFrom index seen vs = .ok ts ↔
      List.Forall₂ (fun v t => Task.HeldBy t v ∧ t.Sound) vs ts ∧
        (ts.map (·.slug)).Nodup ∧ ∀ t ∈ ts, t.slug ∉ seen := by
  induction vs generalizing index seen ts with
  | nil =>
    simp only [acceptTasksFrom, Except.ok.injEq, List.forall₂_nil_left_iff]
    constructor
    · rintro rfl
      simp
    · rintro ⟨rfl, -⟩
      rfl
  | cons v vs ih =>
    rw [acceptTasksFrom]
    constructor
    · intro h
      split at h
      · simp at h
      · next task ht =>
        obtain ⟨held, sound, hseen⟩ := acceptTask_eq_ok_iff.1 ht
        obtain ⟨rest, hrest, rfl⟩ := map_eq_ok_iff.1 h
        obtain ⟨hall, hfree⟩ := ih.1 hrest
        exact ⟨.cons ⟨held, sound⟩ hall, nodup_slugs_cons_iff.2 ⟨hseen, hfree⟩⟩
    · rintro ⟨hall, hfree⟩
      cases hall with
      | cons hv hall =>
        obtain ⟨hseen, hfree⟩ := nodup_slugs_cons_iff.1 hfree
        rw [acceptTask_eq_ok_iff.2 ⟨hv.1, hv.2, hseen⟩]
        exact map_eq_ok_iff.2 ⟨_, ih.2 ⟨hall, hfree⟩, rfl⟩

/-- The tasks of a description: there is one at least. -/
theorem acceptTasks_eq_ok_iff {v : Json} {ts : List Task} :
    acceptTasks v = .ok ts ↔
      (∃ vs, v = .arr vs ∧ List.Forall₂ (fun v t => Task.HeldBy t v ∧ t.Sound) vs ts) ∧
        ts ≠ [] ∧ (ts.map (·.slug)).Nodup := by
  unfold acceptTasks
  split
  · next x rest =>
    rw [acceptTasksFrom_eq_ok_iff]
    constructor
    · rintro ⟨hall, hnd, -⟩
      refine ⟨⟨_, rfl, hall⟩, ?_, hnd⟩
      rintro rfl
      cases hall
    · rintro ⟨⟨vs, hvs, hall⟩, -, hnd⟩
      obtain rfl := Json.arr.inj hvs
      exact ⟨hall, hnd, by simp⟩
  · next hv =>
    simp only [reduceCtorEq, false_iff]
    rintro ⟨⟨vs, rfl, hall⟩, hne, -⟩
    cases hall with
    | nil => exact hne rfl
    | cons _ _ => exact hv _ _ rfl

end CasePlan
