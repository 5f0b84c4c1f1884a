import CasePlan.Proofs.Logic.Consistency

/-!
# How a description fails to be accepted

A description that is not accepted is rejected for a reason, with one exception: a member of a
stage or pattern that is an array or an object is looked up among slugs, and that lookup fails by
itself.  The exception is met exactly if such a member is the first fault that the validation
comes to.

* `ParseError.IsStray`, `Json.FailsLookup`: failures that are no rejections, and where they start.
* `StageFails`, `PatternFails`, `Logic.Fails`: a member that fails its lookup is the first fault of
  a stage, of a pattern, of a description.
* `acceptStagesFrom_eq_stray_iff`, `acceptPatternsFrom_eq_stray_iff`, `accept_eq_stray_iff`: the
  readers fail exactly like that.
* `parse_due_iff`: a value is accepted or rejected exactly if no such member is its first fault.
-/

namespace CasePlan

open Validation

/-- A failure that gives no reason for a rejection. -/
def ParseError.IsStray (e : ParseError) : Prop := ∀ reason, e ≠ .rejected reason

/-- A value that no lookup among slugs can be made with, and how that fails. -/
inductive Json.FailsLookup : Json → ParseError → Prop
  /-- An array. -/
  | arr (items : List Json) : FailsLookup (.arr items) (.unhashable "list")
  /-- An object. -/
  | obj (members : List (Text × Json)) : FailsLookup (.obj members) (.unhashable "dict")

theorem Json.FailsLookup.isStray {v : Json} {e : ParseError} (h : v.FailsLookup e) :
    e.IsStray := by
  rintro reason rfl
  cases h

/-- The first member that is no text fails its lookup; `before` are the texts up to it. -/
def FailsAfter (before : List Text) (vs : List Json) (e : ParseError) : Prop :=
  ∃ v rest, vs = before.map .str ++ v :: rest ∧ v.FailsLookup e

variable {e : ParseError} {slugs : List Text}

theorem FailsAfter.ne_nil {before : List Text} {vs : List Json} (h : FailsAfter before vs e) :
    vs ≠ [] := by
  obtain ⟨v, rest, rfl, -⟩ := h
  exact List.append_ne_nil_of_right_ne_nil _ (List.cons_ne_nil v rest)

theorem FailsAfter.cons {before : List Text} {vs : List Json} (m : Text)
    (h : FailsAfter before vs e) : FailsAfter (m :: before) (.str m :: vs) e := by
  obtain ⟨v, rest, rfl, hv⟩ := h
  exact ⟨v, rest, rfl, hv⟩

theorem FailsAfter.isStray {before : List Text} {vs : List Json} (h : FailsAfter before vs e) :
    e.IsStray := by
  obtain ⟨v, rest, -, hv⟩ := h
  exact hv.isStray

/-- Where it fails: at the first member or after it. -/
theorem failsAfter_cons {before : List Text} {v : Json} {vs : List Json}
    (h : FailsAfter before (v :: vs) e) :
    (before = [] ∧ v.FailsLookup e) ∨
      ∃ m rest, before = m :: rest ∧ v = .str m ∧ FailsAfter rest vs e := by
  obtain ⟨x, rest, hvs, hx⟩ := h
  cases before with
  | nil =>
    obtain ⟨rfl, -⟩ := List.cons.inj hvs
    exact .inl ⟨rfl, hx⟩
  | cons m before =>
    obtain ⟨rfl, rfl⟩ := List.cons.inj hvs
    exact .inr ⟨m, before, rfl, rfl, x, rest, rfl, hx⟩

/-! ## Members of stages -/

theorem acceptMember_eq_error_iff {v : Json} :
    acceptMember slugs v = .error e ↔ v.FailsLookup e := by
  constructor
  · intro h
    unfold acceptMember at h
    split at h
    · next items => exact Except.error.inj h ▸ .arr items
    · next members => exact Except.error.inj h ▸ .obj members
    · cases h
    · cases h
  · rintro (_ | _) <;> rfl

theorem atEntry_ne_stray {α : Type} {list : Section} {index : Nat} {x : Except EntryFault α}
    (he : e.IsStray) : atEntry list index x ≠ .error e := by
  intro h
  cases x with
  | ok a => cases h
  | error fault => exact he _ (Except.error.inj h).symm

/-- The members before the one that fails its lookup could be claimed. -/
theorem claimMembers_eq_stray_iff (he : e.IsStray) {index : Nat} {stage : Text}
    {claimed : List (Text × Text)} {vs : List Json} :
    claimMembers slugs index stage claimed vs = .error e ↔
      ∃ before, FailsAfter before vs e ∧ (∀ m ∈ before, m ∈ slugs) ∧ Unclaimed claimed before := by
  induction vs generalizing claimed with
  | nil =>
    simp only [claimMembers, reduceCtorEq, false_iff]
    rintro ⟨before, h, -⟩
    exact h.ne_nil rfl
  | cons v vs ih =>
    rw [claimMembers]
    constructor
    · intro h
      rcases bind_eq_error_iff.1 h with hv | ⟨x, hx, hafter⟩
      · exact ⟨[], ⟨v, vs, rfl, acceptMember_eq_error_iff.1 hv⟩, by simp, unclaimed_nil _⟩
      rcases bind_eq_error_iff.1 hafter with hentry | ⟨slug, hslug, hclaim⟩
      · exact absurd hentry (atEntry_ne_stray he)
      obtain rfl := atEntry_eq_ok_iff.1 hslug
      obtain ⟨rfl, hmem⟩ := acceptMember_eq_ok_iff.1 hx
      split at hclaim
      · exact absurd (Except.error.inj hclaim).symm (he _)
      · next hfree =>
        rcases bind_eq_error_iff.1 hclaim with hrest | ⟨_, _, hpure⟩
        · obtain ⟨before, hfails, hsub, hnew⟩ := ih.1 hrest
          exact ⟨slug :: before, hfails.cons slug, List.forall_mem_cons.2 ⟨hmem, hsub⟩,
            (unclaimed_cons_iff stage).2 ⟨Table.get?_eq_none_iff.1 hfree, hnew⟩⟩
        · cases hpure
    · rintro ⟨before, hfails, hsub, hnew⟩
      rcases failsAfter_cons hfails with ⟨-, hv⟩ | ⟨m, texts, rfl, rfl, hlater⟩
      · rw [acceptMember_eq_error_iff.2 hv, error_bind]
      · obtain ⟨hm, hsub⟩ := List.forall_mem_cons.1 hsub
        obtain ⟨hkey, hnew⟩ := (unclaimed_cons_iff stage).1 hnew
        have hrest : claimMembers slugs index stage (Table.insert m stage claimed) vs =
            .error e := ih.2 ⟨texts, hlater, hsub, hnew⟩
        rw [acceptMember_eq_ok_iff.2 ⟨rfl, hm⟩, ok_bind, atEntry, ok_bind,
          Table.get?_eq_none_iff.2 hkey]
        exact bind_eq_error_iff.2 (.inl hrest)

/-! ## Stages -/

/-- An object that a stage would be read from, were it not for a member that fails its lookup.
Its slug is free, and so are the tasks that come before that member. -/
structure StageFails (slugs taken claimed : List Text) (v : Json) (e : ParseError) : Prop where
  /-- It is an object. -/
  isObject : ∃ members, v = .obj members
  /-- Neither a task nor a stage before it has its slug. -/
  slug : ∃ slug, v.getD "slug" = .str slug ∧ IsLabel slug ∧ slug ∉ slugs ∧ slug ∉ taken
  /-- Up to the one that fails, the members are different tasks that no stage before it has. -/
  members : ∃ vs before, v.getD "tasks" = .arr vs ∧ FailsAfter before vs e ∧
    (∀ m ∈ before, m ∈ slugs) ∧ before.Nodup ∧ ∀ m ∈ before, m ∉ claimed

/-- The order in which slugs and members were taken does not matter. -/
theorem StageFails.congr {taken taken' claimed claimed' : List Text} {v : Json}
    (ht : ∀ s, s ∈ taken ↔ s ∈ taken') (hc : ∀ m, m ∈ claimed ↔ m ∈ claimed')
    (h : StageFails slugs taken claimed v e) : StageFails slugs taken' claimed' v e := by
  obtain ⟨hobj, ⟨slug, hslug, hlabel, hnew, hfree⟩, vs, before, hvs, hfails, hsub, hnd, hun⟩ := h
  exact ⟨hobj, ⟨slug, hslug, hlabel, hnew, mt (ht slug).2 hfree⟩, vs, before, hvs, hfails, hsub,
    hnd, fun m hm => mt (hc m).2 (hun m hm)⟩

theorem acceptStage_eq_stray_iff (he : e.IsStray) {index : Nat} {before : StagesSoFar}
    {v : Json} :
    acceptStage slugs index before v = .error e ↔
      StageFails slugs before.slugs (before.claimed.map Prod.fst) v e := by
  unfold acceptStage
  split
  · next obj =>
    constructor
    · intro h
      rcases bind_eq_error_iff.1 h with hentry | ⟨slug, hread, htail⟩
      · exact absurd hentry (atEntry_ne_stray he)
      obtain ⟨hslug, hlabel⟩ := acceptLabel_eq_ok_iff.1 (atEntry_eq_ok_iff.1 hread)
      by_cases htaken : slug ∈ slugs ∨ slug ∈ before.slugs
      · rw [if_pos htaken] at htail
        exact absurd (Except.error.inj htail).symm (he _)
      rw [if_neg htaken] at htail
      rw [not_or] at htaken
      split at htail
      · next x rest hvs =>
        rcases bind_eq_error_iff.1 htail with hclaim | ⟨_, -, hname⟩
        · obtain ⟨ms, hfails⟩ := (claimMembers_eq_stray_iff he).1 hclaim
          exact ⟨⟨obj, rfl⟩, ⟨slug, hslug, hlabel, htaken⟩, _, ms, hvs, hfails⟩
        rcases bind_eq_error_iff.1 hname with hentry | ⟨_, -, hpure⟩
        · exact absurd hentry (atEntry_ne_stray he)
        · cases hpure
      · exact absurd (Except.error.inj htail).symm (he _)
    · rintro ⟨-, ⟨slug, hslug, hlabel, hfree⟩, vs, ms, hvs, hfails, hclaim⟩
      obtain ⟨x, rest, rfl⟩ := List.exists_cons_of_ne_nil hfails.ne_nil
      rw [acceptLabel_eq_ok_iff.2 ⟨hslug, hlabel⟩, atEntry, ok_bind, if_neg (not_or.2 hfree), hvs]
      exact bind_eq_error_iff.2 (.inl ((claimMembers_eq_stray_iff he).2 ⟨ms, hfails, hclaim⟩))
  · next hv =>
    constructor
    · intro h
      exact absurd (Except.error.inj h).symm (he _)
    · rintro ⟨⟨members, rfl⟩, -⟩
      exact absurd rfl (hv members)

/-- What is taken after a stage and those that follow it. -/
theorem mem_taken_add_iff {before : StagesSoFar} {d : StageDraft} {drafts : List StageDraft}
    {s : Text} :
    s ∈ (before.add d).slugs ++ drafts.map StageDraft.slug ↔
      s ∈ before.slugs ++ (d :: drafts).map StageDraft.slug := by
  simp only [StagesSoFar.add, List.map_cons, List.mem_append, List.mem_cons]
  tauto

/-- What is claimed after a stage and those that follow it. -/
theorem mem_claimed_add_iff {before : StagesSoFar} {d : StageDraft} {drafts : List StageDraft}
    {m : Text} (h : Unclaimed before.claimed d.members) :
    m ∈ (before.add d).claimed.map Prod.fst ++ drafts.flatMap StageDraft.members ↔
      m ∈ before.claimed.map Prod.fst ++ (d :: drafts).flatMap StageDraft.members := by
  rw [StagesSoFar.add, keys_claimAll d.slug h, List.flatMap_cons, List.append_assoc]

/-- A stage fails after one stage and those that follow it. -/
theorem stageFails_add_iff {before : StagesSoFar} {d : StageDraft} {drafts : List StageDraft}
    {v : Json} (h : Unclaimed before.claimed d.members) :
    StageFails slugs ((before.add d).slugs ++ drafts.map (·.slug))
        ((before.add d).claimed.map Prod.fst ++ drafts.flatMap (·.members)) v e ↔
      StageFails slugs (before.slugs ++ (d :: drafts).map (·.slug))
        (before.claimed.map Prod.fst ++ (d :: drafts).flatMap (·.members)) v e :=
  ⟨.congr (fun _ => mem_taken_add_iff) fun _ => mem_claimed_add_iff h,
    .congr (fun _ => mem_taken_add_iff.symm) fun _ => (mem_claimed_add_iff h).symm⟩

/-- The stages before the one that fails are accepted. -/
theorem acceptStagesFrom_eq_stray_iff (he : e.IsStray) {index : Nat} {before : StagesSoFar}
    {vs : List Json} :
    acceptStagesFrom slugs index before vs = .error e ↔
      ∃ done v rest drafts, vs = done ++ v :: rest ∧
        acceptStagesFrom slugs index before done = .ok drafts ∧
        StageFails slugs (before.slugs ++ drafts.map (·.slug))
          (before.claimed.map Prod.fst ++ drafts.flatMap (·.members)) v e := by
  induction vs generalizing index before with
  | nil =>
    simp only [acceptStagesFrom, reduceCtorEq, false_iff]
    rintro ⟨done, v, rest, drafts, hvs, -⟩
    cases done <;> cases hvs
  | cons v vs ih =>
    rw [acceptStagesFrom]
    constructor
    · intro h
      rcases bind_eq_error_iff.1 h with hstage | ⟨⟨d, after⟩, hd, hrest⟩
      · refine ⟨[], v, vs, [], rfl, rfl, ?_⟩
        simpa using (acceptStage_eq_stray_iff he).1 hstage
      rcases bind_eq_error_iff.1 hrest with hlater | ⟨_, -, hpure⟩
      · obtain ⟨done, x, rest, drafts, rfl, hdone, hfails⟩ := ih.1 hlater
        obtain ⟨-, -, hms, rfl⟩ := acceptStage_eq_ok_iff.1 hd
        refine ⟨v :: done, x, rest, d :: drafts, rfl, ?_, (stageFails_add_iff hms).1 hfails⟩
        rw [acceptStagesFrom]
        exact bind_eq_ok_iff.2 ⟨(d, before.add d), hd, bind_eq_ok_iff.2 ⟨drafts, hdone, rfl⟩⟩
      · cases hpure
    · rintro ⟨done, x, rest, drafts, hvs, hdone, hfails⟩
      cases done with
      | nil =>
        obtain ⟨rfl, rfl⟩ := List.cons.inj hvs
        obtain rfl := Except.ok.inj hdone
        refine bind_eq_error_iff.2 (.inl ((acceptStage_eq_stray_iff he).2 ?_))
        simpa using hfails
      | cons w done =>
        obtain ⟨rfl, rfl⟩ := List.cons.inj hvs
        rw [acceptStagesFrom] at hdone
        obtain ⟨⟨d, after⟩, hd, hdone⟩ := bind_eq_ok_iff.1 hdone
        obtain ⟨later, hlater, hdone⟩ := bind_eq_ok_iff.1 hdone
        obtain rfl := pure_eq_ok_iff.1 hdone
        obtain ⟨-, -, hms, rfl⟩ := acceptStage_eq_ok_iff.1 hd
        have hrest : acceptStagesFrom slugs (index + 1) (before.add d) (done ++ x :: rest) =
            .error e :=
          ih.2 ⟨done, x, rest, later, rfl, hlater, (stageFails_add_iff hms).2 hfails⟩
        rw [hd, ok_bind]
        exact bind_eq_error_iff.2 (.inl hrest)

theorem acceptStages_eq_stray_iff (he : e.IsStray) {v : Json} :
    acceptStages slugs v = .error e ↔
      ∃ done x rest drafts, v = .arr (done ++ x :: rest) ∧
        acceptStages slugs (.arr done) = .ok drafts ∧
        StageFails slugs (drafts.map (·.slug)) (drafts.flatMap (·.members)) x e := by
  unfold acceptStages
  split
  · simp
  · next vs =>
    rw [acceptStagesFrom_eq_stray_iff he]
    simp only [List.map_nil, List.nil_append, Json.arr.injEq]
  · next harr =>
    constructor
    · intro h
      exact absurd (Except.error.inj h).symm (he _)
    · rintro ⟨done, x, rest, drafts, rfl, -⟩
      exact absurd rfl (harr _)

/-! ## Patterns -/

theorem acceptMembers_eq_stray_iff (he : e.IsStray) {index : Nat} {vs : List Json} :
    acceptMembers slugs index vs = .error e ↔
      ∃ before, FailsAfter before vs e ∧ ∀ m ∈ before, m ∈ slugs := by
  induction vs with
  | nil =>
    simp only [acceptMembers, reduceCtorEq, false_iff]
    rintro ⟨before, h, -⟩
    exact h.ne_nil rfl
  | cons v vs ih =>
    rw [acceptMembers]
    constructor
    · intro h
      rcases bind_eq_error_iff.1 h with hv | ⟨x, hx, hafter⟩
      · exact ⟨[], ⟨v, vs, rfl, acceptMember_eq_error_iff.1 hv⟩, by simp⟩
      rcases bind_eq_error_iff.1 hafter with hentry | ⟨slug, hslug, htail⟩
      · exact absurd hentry (atEntry_ne_stray he)
      obtain rfl := atEntry_eq_ok_iff.1 hslug
      obtain ⟨rfl, hmem⟩ := acceptMember_eq_ok_iff.1 hx
      rcases bind_eq_error_iff.1 htail with hrest | ⟨_, -, hpure⟩
      · obtain ⟨before, hfails, hsub⟩ := ih.1 hrest
        exact ⟨slug :: before, hfails.cons slug, List.forall_mem_cons.2 ⟨hmem, hsub⟩⟩
      · cases hpure
    · rintro ⟨before, hfails, hsub⟩
      rcases failsAfter_cons hfails with ⟨-, hv⟩ | ⟨m, texts, rfl, rfl, hlater⟩
      · rw [acceptMember_eq_error_iff.2 hv, error_bind]
      · obtain ⟨hm, hsub⟩ := List.forall_mem_cons.1 hsub
        rw [acceptMember_eq_ok_iff.2 ⟨rfl, hm⟩, ok_bind, atEntry, ok_bind,
          ih.2 ⟨texts, hlater, hsub⟩, error_bind]

/-- Conditions are rejected or accepted. -/
theorem acceptConditionsFrom_ne_stray (he : e.IsStray) {pattern index : Nat} {vs : List Json} :
    acceptConditionsFrom slugs pattern index vs ≠ .error e := by
  induction vs generalizing index with
  | nil => simp [acceptConditionsFrom]
  | cons v vs ih =>
    rw [acceptConditionsFrom]
    split
    · exact fun h => he _ (Except.error.inj h).symm
    · exact fun h => ih (map_eq_error_iff.1 h)

/-- An object that a pattern would be read from, were it not for a member that fails its lookup. -/
structure PatternFails (slugs : List Text) (v : Json) (e : ParseError) : Prop where
  /-- It is an object. -/
  isObject : ∃ members, v = .obj members
  /-- Its kind is known. -/
  kind : ∃ kind, (v.getD "type").text?.bind PatternKind.ofWord? = some kind
  /-- Up to the one that fails, the members are tasks. -/
  members : ∃ vs before, v.getD "tasks" = .arr vs ∧ FailsAfter before vs e ∧
    ∀ m ∈ before, m ∈ slugs

theorem acceptPattern_eq_stray_iff (he : e.IsStray) {index : Nat} {v : Json} :
    acceptPattern slugs index v = .error e ↔ PatternFails slugs v e := by
  unfold acceptPattern
  split
  · next obj =>
    constructor
    · intro h
      split at h
      · exact absurd (Except.error.inj h).symm (he _)
      · next kind hkind =>
        split at h
        · next x rest hvs =>
          rcases bind_eq_error_iff.1 h with hmembers | ⟨_, -, htail⟩
          · obtain ⟨before, hfails⟩ := (acceptMembers_eq_stray_iff he).1 hmembers
            exact ⟨⟨obj, rfl⟩, ⟨kind, hkind⟩, _, before, hvs, hfails⟩
          split at htail
          · cases htail
          · rcases bind_eq_error_iff.1 htail with hconditions | ⟨_, -, hpure⟩
            · exact absurd hconditions (acceptConditionsFrom_ne_stray he)
            · cases hpure
          · exact absurd (Except.error.inj htail).symm (he _)
        · exact absurd (Except.error.inj h).symm (he _)
    · rintro ⟨-, ⟨kind, hkind⟩, vs, before, hvs, hfails, hsub⟩
      obtain ⟨x, rest, rfl⟩ := List.exists_cons_of_ne_nil hfails.ne_nil
      simp only [hkind, hvs]
      exact bind_eq_error_iff.2 (.inl ((acceptMembers_eq_stray_iff he).2 ⟨before, hfails, hsub⟩))
  · next hv =>
    constructor
    · intro h
      exact absurd (Except.error.inj h).symm (he _)
    · rintro ⟨⟨members, rfl⟩, -⟩
      exact absurd rfl (hv members)

/-- The patterns before the one that fails are accepted. -/
theorem acceptPatternsFrom_eq_stray_iff (he : e.IsStray) {index : Nat} {vs : List Json} :
    acceptPatternsFrom slugs index vs = .error e ↔
      ∃ done v rest patterns, vs = done ++ v :: rest ∧
        acceptPatternsFrom slugs index done = .ok patterns ∧ PatternFails slugs v e := by
  induction vs generalizing index with
  | nil =>
    simp only [acceptPatternsFrom, reduceCtorEq, false_iff]
    rintro ⟨done, v, rest, patterns, hvs, -⟩
    cases done <;> cases hvs
  | cons v vs ih =>
    rw [acceptPatternsFrom]
    constructor
    · intro h
      rcases bind_eq_error_iff.1 h with hv | ⟨p, hp, hrest⟩
      · exact ⟨[], v, vs, [], rfl, rfl, (acceptPattern_eq_stray_iff he).1 hv⟩
      rcases bind_eq_error_iff.1 hrest with hlater | ⟨_, -, hpure⟩
      · obtain ⟨done, x, rest, patterns, rfl, hdone, hfails⟩ := ih.1 hlater
        refine ⟨v :: done, x, rest, p :: patterns, rfl, ?_, hfails⟩
        rw [acceptPatternsFrom]
        exact bind_eq_ok_iff.2 ⟨p, hp, bind_eq_ok_iff.2 ⟨patterns, hdone, rfl⟩⟩
      · cases hpure
    · rintro ⟨done, x, rest, patterns, hvs, hdone, hfails⟩
      cases done with
      | nil =>
        obtain ⟨rfl, rfl⟩ := List.cons.inj hvs
        exact bind_eq_error_iff.2 (.inl ((acceptPattern_eq_stray_iff he).2 hfails))
      | cons w done =>
        obtain ⟨rfl, rfl⟩ := List.cons.inj hvs
        rw [acceptPatternsFrom] at hdone
        obtain ⟨p, hp, hdone⟩ := bind_eq_ok_iff.1 hdone
        obtain ⟨later, hlater, -⟩ := bind_eq_ok_iff.1 hdone
        rw [hp, ok_bind, ih.2 ⟨done, x, rest, later, rfl, hlater, hfails⟩, error_bind]

theorem acceptPatterns_eq_stray_iff (he : e.IsStray) {v : Json} :
    acceptPatterns slugs v = .error e ↔
      ∃ done x rest patterns, v = .arr (done ++ x :: rest) ∧
        acceptPatterns slugs (.arr done) = .ok patterns ∧ PatternFails slugs x e := by
  unfold acceptPatterns
  split
  · simp
  · next vs =>
    rw [acceptPatternsFrom_eq_stray_iff he]
    simp only [Json.arr.injEq]
  · next harr =>
    constructor
    · intro h
      exact absurd (Except.error.inj h).symm (he _)
    · rintro ⟨done, x, rest, patterns, rfl, -⟩
      exact absurd rfl (harr _)

/-! ## The whole description -/

namespace Logic

/-- The first fault of a description is a member that fails its lookup: the tasks are accepted,
and so are the stages and patterns before the one that has the member. -/
inductive Fails (v : Json) (e : ParseError) : Prop
  /-- The member is one of a stage. -/
  | stage {tasks : List Task} {done : List Json} {stage : Json} {rest : List Json}
      {drafts : List StageDraft}
      (isObject : ∃ members, v = .obj members)
      (tasks_eq : acceptTasks (v.getD "tasks") = .ok tasks)
      (stages_eq : v.getD "stages" = .arr (done ++ stage :: rest))
      (done_eq : acceptStages (tasks.map (·.slug)) (.arr done) = .ok drafts)
      (fails : StageFails (tasks.map (·.slug)) (drafts.map (·.slug))
        (drafts.flatMap (·.members)) stage e)
  /-- The member is one of a pattern. -/
  | pattern {tasks : List Task} {drafts : List StageDraft} {done : List Json} {pattern : Json}
      {rest : List Json} {patterns : List Pattern}
      (isObject : ∃ members, v = .obj members)
      (tasks_eq : acceptTasks (v.getD "tasks") = .ok tasks)
      (stages_eq : acceptStages (tasks.map (·.slug)) (v.getD "stages") = .ok drafts)
      (patterns_eq : v.getD "patterns" = .arr (done ++ pattern :: rest))
      (done_eq : acceptPatterns (tasks.map (·.slug)) (.arr done) = .ok patterns)
      (fails : PatternFails (tasks.map (·.slug)) pattern e)

theorem accept_eq_stray_iff (he : e.IsStray) {v : Json} :
    accept v = .error e ↔ Fails v e := by
  unfold accept
  split
  · next obj =>
    constructor
    · intro h
      rcases bind_eq_error_iff.1 h with htasks | ⟨tasks, htasks, hafter⟩
      · obtain ⟨reason, -, rfl⟩ := mapError_eq_error_iff.1 htasks
        exact absurd rfl (he reason)
      rw [mapError_eq_ok_iff] at htasks
      rcases bind_eq_error_iff.1 hafter with hstages | ⟨drafts, hdrafts, hlater⟩
      · obtain ⟨done, x, rest, drafts, hvs, hdone, hfails⟩ :=
          (acceptStages_eq_stray_iff he).1 hstages
        exact .stage ⟨obj, rfl⟩ htasks hvs hdone hfails
      rcases bind_eq_error_iff.1 hlater with hpatterns | ⟨_, -, hfinish⟩
      · obtain ⟨done, x, rest, patterns, hvs, hdone, hfails⟩ :=
          (acceptPatterns_eq_stray_iff he).1 hpatterns
        exact .pattern ⟨obj, rfl⟩ htasks hdrafts hvs hdone hfails
      rcases bind_eq_error_iff.1 hfinish with hnames | ⟨_, -, hpure⟩
      · obtain ⟨reason, -, rfl⟩ := mapError_eq_error_iff.1 hnames
        exact absurd rfl (he reason)
      · cases hpure
    · rintro (⟨-, htasks, hvs, hdone, hfails⟩ | ⟨-, htasks, hdrafts, hvs, hdone, hfails⟩)
      · refine bind_eq_error_iff.2 (.inr ⟨_, mapError_eq_ok_iff.2 htasks, ?_⟩)
        exact bind_eq_error_iff.2
          (.inl ((acceptStages_eq_stray_iff he).2 ⟨_, _, _, _, hvs, hdone, hfails⟩))
      · refine bind_eq_error_iff.2 (.inr ⟨_, mapError_eq_ok_iff.2 htasks, ?_⟩)
        refine bind_eq_error_iff.2 (.inr ⟨_, hdrafts, ?_⟩)
        exact bind_eq_error_iff.2
          (.inl ((acceptPatterns_eq_stray_iff he).2 ⟨_, _, _, _, hvs, hdone, hfails⟩))
  · next hv =>
    constructor
    · intro h
      exact absurd (Except.error.inj h).symm (he _)
    · rintro (⟨⟨members, rfl⟩, -⟩ | ⟨⟨members, rfl⟩, -⟩)
      · exact absurd rfl (hv members)
      · exact absurd rfl (hv members)

/-- The value that a description is read from: what a text holds, or the value itself. -/
inductive ReadFrom : Json → Json → Prop
  /-- A text is read as JSON. -/
  | text {t : Text} {v : Json} (h : Json.read t = .ok v) : ReadFrom (.str t) v
  /-- Anything else is data already. -/
  | data {v : Json} (h : ∀ t, v ≠ .str t) : ReadFrom v v

theorem parse_eq_stray_iff (he : e.IsStray) {raw : Json} :
    parse raw = .error e ↔ ∃ v, ReadFrom raw v ∧ Fails v e := by
  unfold parse
  split
  · next t =>
    unfold parseText
    cases hread : Json.read t with
    | error fault =>
      constructor
      · intro h
        exact absurd (Except.error.inj h).symm (he _)
      · rintro ⟨v, hv | hv, -⟩
        · rw [hread] at hv
          cases hv
        · exact absurd rfl (hv t)
    | ok v =>
      rw [accept_eq_stray_iff he]
      constructor
      · exact fun h => ⟨v, .text hread, h⟩
      · rintro ⟨w, hw | hw, h⟩
        · rw [hread] at hw
          exact Except.ok.inj hw ▸ h
        · exact absurd rfl (hw t)
  · next hstr =>
    rw [accept_eq_stray_iff he]
    constructor
    · exact fun h => ⟨raw, .data hstr, h⟩
    · rintro ⟨v, hv | hv, h⟩
      · exact absurd rfl (hstr _)
      · exact h

theorem Fails.isStray {v : Json} : Fails v e → e.IsStray
  | .stage _ _ _ _ fails =>
    let ⟨_, _, _, h, _⟩ := fails.members
    h.isStray
  | .pattern _ _ _ _ _ fails =>
    let ⟨_, _, _, h, _⟩ := fails.members
    h.isStray

/-- A value, or the text of one, is accepted or rejected exactly if no member of a stage or pattern
that is an array or an object is its first fault. -/
theorem parse_due_iff (raw : Json) :
    ((∃ logic, parse raw = .ok logic) ∨ ∃ reason, parse raw = .error (.rejected reason)) ↔
      ¬ ∃ v e, ReadFrom raw v ∧ Fails v e := by
  constructor
  · rintro hdue ⟨v, e, hread, hfails⟩
    have hparse := (parse_eq_stray_iff hfails.isStray).2 ⟨v, hread, hfails⟩
    rcases hdue with ⟨logic, h⟩ | ⟨reason, h⟩
    · rw [hparse] at h
      cases h
    · rw [hparse] at h
      exact hfails.isStray reason (Except.error.inj h)
  · intro hnone
    cases hparse : parse raw with
    | ok logic => exact .inl ⟨logic, rfl⟩
    | error e =>
      by_cases he : ∃ reason, e = .rejected reason
      · obtain ⟨reason, rfl⟩ := he
        exact .inr ⟨reason, rfl⟩
      · have hstray : e.IsStray := fun reason h => he ⟨reason, h⟩
        obtain ⟨v, hread, hfails⟩ := (parse_eq_stray_iff hstray).1 hparse
        exact absurd ⟨v, e, hread, hfails⟩ hnone

/-- A description whose pattern has an array as its only member. -/
def strayValue : Json :=
  .obj [("tasks", .arr
      [.obj [("slug", .str "a"), ("displayName", .str "A"), ("outcomes", .arr [.str "done"])]]),
    ("patterns", .arr
      [.obj [("type", .str "sequential"), ("tasks", .arr [.arr [.str "a"]])]])]

/-- It is neither accepted nor rejected. -/
theorem strayValue_not_due :
    ¬((∃ logic, parse strayValue = .ok logic) ∨
      ∃ reason, parse strayValue = .error (.rejected reason)) := by
  rw [parse_due_iff, not_not]
  refine ⟨strayValue, .unhashable "list", .data fun t => by simp [strayValue], ?_⟩
  have htasks : acceptTasks (strayValue.getD "tasks") =
      .ok [{ slug := "a", displayName := "A", outcomes := ["done"] }] := by rfl
  have hpatterns : strayValue.getD "patterns" = .arr ([] ++
      .obj [("type", .str "sequential"), ("tasks", .arr [.arr [.str "a"]])] :: []) := by rfl
  exact .pattern ⟨_, rfl⟩ htasks rfl hpatterns rfl
    ⟨⟨_, rfl⟩, ⟨.sequential, rfl⟩, _, [], rfl, ⟨_, _, rfl, .arr _⟩, by simp⟩

end Logic

end CasePlan
