import CasePlan.Proofs.Logic.Entries
import Mathlib.Data.List.Nodup

/-!
# How stages and patterns are read

Stages are read one after another with a record of the slugs and members that are taken; the
record settles that slugs are different and that no task is in two stages.

* `Unclaimed`, `StagesSoFar.IsFree`: what the record asks of members and stages that come next, all
  of them at once; `unclaimed_cons_iff` and `isFree_cons_iff` go from one to the next.
* `claimMembers_eq_ok_iff`, `acceptStagesFrom_eq_ok_iff`: which members and stages are accepted.
* `acceptPatternsFrom_eq_ok_iff`: which patterns are accepted; `acceptCondition_eq_ok`: what an
  accepted condition satisfies.
-/

namespace CasePlan

open Validation

/-! ## Stages -/

namespace Stage

/-- What is asked of a stage, given the slugs of the tasks. -/
structure Sound (slugs : List Text) (s : Stage) : Prop where
  /-- Its slug is a label. -/
  slug : IsLabel s.slug
  /-- No task has its slug. -/
  slug_notMem : s.slug ∉ slugs
  /-- Its name is not empty. -/
  displayName_ne_nil : s.displayName ≠ []
  /-- XML can carry its name. -/
  displayName : s.displayName.isXmlText = true
  /-- It has a member. -/
  members_ne_nil : s.members ≠ []
  /-- Its members are tasks. -/
  members_subset : ∀ m ∈ s.members, m ∈ slugs

/-- A value is an object that says what the stage is. -/
structure HeldBy (s : Stage) (v : Json) : Prop where
  /-- It is an object. -/
  isObject : ∃ members, v = .obj members
  /-- It holds the slug. -/
  slug : v.getD "slug" = .str s.slug
  /-- It holds the members. -/
  members : v.getD "tasks" = .arr (s.members.map .str)
  /-- The name is read from it. -/
  displayName : acceptStageName s.slug (v.getD "displayName") = .ok (some s.displayName)

end Stage

@[simp] theorem atEntry_eq_ok_iff {α : Type} {list : Section} {index : Nat}
    {x : Except EntryFault α} {a : α} : atEntry list index x = .ok a ↔ x = .ok a := by
  cases x <;> simp [atEntry]

theorem acceptMember_eq_ok_iff {slugs : List Text} {v : Json} {t : Text} :
    acceptMember slugs v = .ok (.ok t) ↔ v = .str t ∧ t ∈ slugs := by
  cases v with
  | str s =>
    by_cases hs : s ∈ slugs
    · simp only [acceptMember, if_pos hs, Except.ok.injEq, Json.str.injEq]
      exact ⟨fun h => ⟨h, h ▸ hs⟩, And.left⟩
    · simp only [acceptMember, if_neg hs, Except.ok.injEq, reduceCtorEq, Json.str.injEq, false_iff]
      rintro ⟨rfl, h⟩
      exact hs h
  | _ => simp [acceptMember]

/-- Some members are all different, and nobody has claimed one of them. -/
def Unclaimed (claimed : List (Text × Text)) (ms : List Text) : Prop :=
  ms.Nodup ∧ ∀ m ∈ ms, m ∉ claimed.map Prod.fst

@[simp] theorem unclaimed_nil (claimed : List (Text × Text)) : Unclaimed claimed [] := by
  simp [Unclaimed]

/-- Claiming a member for a stage leaves unclaimed what was so together with it. -/
theorem unclaimed_cons_iff (stage : Text) {claimed : List (Text × Text)} {m : Text}
    {ms : List Text} :
    Unclaimed claimed (m :: ms) ↔
      m ∉ claimed.map Prod.fst ∧ Unclaimed (Table.insert m stage claimed) ms := by
  unfold Unclaimed
  rw [List.nodup_cons, List.forall_mem_cons]
  constructor
  · rintro ⟨⟨hfresh, hnd⟩, hm, hms⟩
    refine ⟨hm, hnd, fun k hk => ?_⟩
    rw [Table.keys_insert, if_neg hm, List.mem_append, List.mem_singleton, not_or]
    exact ⟨hms k hk, fun hkm => hfresh (hkm ▸ hk)⟩
  · rintro ⟨hm, hnd, hms⟩
    simp only [Table.keys_insert, if_neg hm, List.mem_append, List.mem_singleton, not_or] at hms
    exact ⟨⟨fun hk => (hms m hk).2 rfl, hnd⟩, hm, fun k hk => (hms k hk).1⟩

/-- The table after a stage has claimed some members. -/
def claimAll (stage : Text) (ms : List Text) (claimed : List (Text × Text)) :
    List (Text × Text) :=
  ms.foldl (fun c m => Table.insert m stage c) claimed

theorem claimAll_nil (stage : Text) (claimed : List (Text × Text)) :
    claimAll stage [] claimed = claimed := rfl

theorem claimAll_cons (stage m : Text) (ms : List Text) (claimed : List (Text × Text)) :
    claimAll stage (m :: ms) claimed = claimAll stage ms (Table.insert m stage claimed) := rfl

/-- What is unclaimed after some members have been claimed. -/
theorem unclaimed_append_iff (stage : Text) {claimed : List (Text × Text)} {ms ks : List Text} :
    Unclaimed claimed (ms ++ ks) ↔
      Unclaimed claimed ms ∧ Unclaimed (claimAll stage ms claimed) ks := by
  induction ms generalizing claimed with
  | nil => simp [claimAll_nil]
  | cons m ms ih =>
    rw [List.cons_append, unclaimed_cons_iff stage, ih, unclaimed_cons_iff stage, claimAll_cons,
      and_assoc]

/-- The keys after claiming some members that nobody has claimed. -/
theorem keys_claimAll (stage : Text) {claimed : List (Text × Text)} {ms : List Text}
    (h : Unclaimed claimed ms) :
    (claimAll stage ms claimed).map Prod.fst = claimed.map Prod.fst ++ ms := by
  induction ms generalizing claimed with
  | nil => simp [claimAll_nil]
  | cons m ms ih =>
    obtain ⟨hm, hms⟩ := (unclaimed_cons_iff stage).1 h
    rw [claimAll_cons, ih hms, Table.keys_insert, if_neg hm, List.append_assoc,
      List.singleton_append]

/-- Members are claimed exactly if they are tasks, all different, and claimed by no stage yet. -/
theorem claimMembers_eq_ok_iff {slugs : List Text} {index : Nat} {stage : Text}
    {claimed after : List (Text × Text)} {vs : List Json} {ms : List Text} :
    claimMembers slugs index stage claimed vs = .ok (ms, after) ↔
      vs = ms.map .str ∧ (∀ m ∈ ms, m ∈ slugs) ∧ Unclaimed claimed ms ∧
        after = claimAll stage ms claimed := by
  induction vs generalizing claimed ms with
  | nil =>
    simp only [claimMembers, Except.ok.injEq, Prod.mk.injEq]
    constructor
    · rintro ⟨rfl, rfl⟩
      simp [claimAll_nil]
    · rintro ⟨h, -, -, rfl⟩
      obtain rfl := List.map_eq_nil_iff.1 h.symm
      exact ⟨rfl, rfl⟩
  | cons v vs ih =>
    simp only [claimMembers, bind_eq_ok_iff, atEntry_eq_ok_iff]
    constructor
    · rintro ⟨_, hx, slug, rfl, h⟩
      obtain ⟨rfl, hslug⟩ := acceptMember_eq_ok_iff.1 hx
      split at h
      · simp at h
      · next hfree =>
        obtain ⟨⟨rest, after'⟩, hrest, h⟩ := bind_eq_ok_iff.1 h
        simp only [pure_eq_ok_iff, Prod.mk.injEq] at h
        obtain ⟨rfl, rfl⟩ := h
        obtain ⟨rfl, hsub, hnew, rfl⟩ := ih.1 hrest
        exact ⟨rfl, List.forall_mem_cons.2 ⟨hslug, hsub⟩,
          (unclaimed_cons_iff stage).2 ⟨Table.get?_eq_none_iff.1 hfree, hnew⟩, rfl⟩
    · rintro ⟨hvs, hsub, hnew, rfl⟩
      cases ms with
      | nil => simp at hvs
      | cons m ms =>
        obtain ⟨rfl, rfl⟩ := List.cons.inj hvs
        obtain ⟨hm, hsub⟩ := List.forall_mem_cons.1 hsub
        obtain ⟨hkey, hnew⟩ := (unclaimed_cons_iff stage).1 hnew
        refine ⟨_, acceptMember_eq_ok_iff.2 ⟨rfl, hm⟩, m, rfl, ?_⟩
        rw [Table.get?_eq_none_iff.2 hkey]
        exact bind_eq_ok_iff.2 ⟨(ms, _), ih.2 ⟨rfl, hsub, hnew, rfl⟩, rfl⟩

/-- What is asked of a stage before its name is known to be a text, given the slugs of the tasks,
and how it is read from an object. -/
structure DraftHeldBy (slugs : List Text) (d : StageDraft) (v : Json) : Prop where
  /-- The value is an object. -/
  isObject : ∃ members, v = .obj members
  /-- It holds the slug. -/
  slug_eq : v.getD "slug" = .str d.slug
  /-- It holds the members. -/
  members_eq : v.getD "tasks" = .arr (d.members.map .str)
  /-- The name is read from it. -/
  name_eq : acceptStageName d.slug (v.getD "displayName") = .ok d.name?
  /-- The slug is a label. -/
  slug : IsLabel d.slug
  /-- No task has the slug. -/
  slug_notMem : d.slug ∉ slugs
  /-- There is a member. -/
  members_ne_nil : d.members ≠ []
  /-- The members are tasks. -/
  members_subset : ∀ m ∈ d.members, m ∈ slugs

/-- What a stage leaves behind for those after it. -/
def Validation.StagesSoFar.add (before : StagesSoFar) (d : StageDraft) : StagesSoFar :=
  ⟨d.slug :: before.slugs, claimAll d.slug d.members before.claimed⟩

theorem acceptStage_eq_ok_iff {slugs : List Text} {index : Nat} {before after : StagesSoFar}
    {v : Json} {d : StageDraft} :
    acceptStage slugs index before v = .ok (d, after) ↔
      DraftHeldBy slugs d v ∧ d.slug ∉ before.slugs ∧ Unclaimed before.claimed d.members ∧
        after = before.add d := by
  unfold acceptStage
  split
  · next members =>
    simp only [bind_eq_ok_iff, atEntry_eq_ok_iff, acceptLabel_eq_ok_iff, error_bind,
      guard_eq_ok_iff, not_or]
    constructor
    · rintro ⟨slug, ⟨hs, ls⟩, ⟨hslug, hbefore⟩, h⟩
      split at h
      · next x rest hms =>
        obtain ⟨⟨ms, claimed⟩, hclaim, h⟩ := bind_eq_ok_iff.1 h
        obtain ⟨name?, hname, h⟩ := bind_eq_ok_iff.1 h
        simp only [pure_eq_ok_iff, Prod.mk.injEq] at h
        obtain ⟨rfl, rfl⟩ := h
        obtain ⟨hvs, hsub, hnew, rfl⟩ := claimMembers_eq_ok_iff.1 hclaim
        refine ⟨⟨⟨members, rfl⟩, hs, by rw [hms, hvs], by simpa using hname, ls, hslug, ?_, hsub⟩,
          hbefore, hnew, rfl⟩
        rintro rfl
        simp at hvs
      · simp at h
    · rintro ⟨held, hbefore, hnew, rfl⟩
      refine ⟨d.slug, ⟨held.slug_eq, held.slug⟩, ⟨held.slug_notMem, hbefore⟩, ?_⟩
      rw [held.members_eq]
      obtain ⟨m, ms, hms⟩ := List.exists_cons_of_ne_nil held.members_ne_nil
      have hclaim : claimMembers slugs index d.slug before.claimed (d.members.map .str) =
          .ok (d.members, claimAll d.slug d.members before.claimed) :=
        claimMembers_eq_ok_iff.2 ⟨rfl, held.members_subset, hnew, rfl⟩
      rw [hms, List.map_cons] at hclaim ⊢
      simp only [bind_eq_ok_iff, atEntry_eq_ok_iff]
      refine ⟨_, hclaim, d.name?, held.name_eq, ?_⟩
      rw [pure_eq_ok_iff, ← hms]
      rfl
  · next hv =>
    simp only [reduceCtorEq, false_iff]
    rintro ⟨held, -⟩
    obtain ⟨members, rfl⟩ := held.isObject
    exact hv members rfl

/-- Some stages have slugs and members that are all different and that no stage before them has. -/
structure Validation.StagesSoFar.IsFree (before : StagesSoFar) (ds : List StageDraft) : Prop where
  /-- Their slugs are all different. -/
  nodup : (ds.map (·.slug)).Nodup
  /-- No stage before them has one of their slugs. -/
  slug_notMem : ∀ d ∈ ds, d.slug ∉ before.slugs
  /-- Nobody has claimed their members, which are all different. -/
  members : Unclaimed before.claimed (ds.flatMap (·.members))

/-- A stage is free, and those after it are when it stands with the stages before. -/
theorem isFree_cons_iff {before : StagesSoFar} {d : StageDraft} {ds : List StageDraft} :
    before.IsFree (d :: ds) ↔
      d.slug ∉ before.slugs ∧ Unclaimed before.claimed d.members ∧ (before.add d).IsFree ds := by
  constructor
  · rintro ⟨hnd, hslugs, hms⟩
    obtain ⟨hslug, hnd, hslugs⟩ := nodup_slugs_cons_iff.1 ⟨hnd, hslugs⟩
    obtain ⟨hms, hrest⟩ := (unclaimed_append_iff d.slug).1 hms
    exact ⟨hslug, hms, hnd, hslugs, hrest⟩
  · rintro ⟨hslug, hms, hnd, hslugs, hrest⟩
    obtain ⟨hnd, hslugs⟩ := nodup_slugs_cons_iff.2 ⟨hslug, hnd, hslugs⟩
    exact ⟨hnd, hslugs, (unclaimed_append_iff d.slug).2 ⟨hms, hrest⟩⟩

/-- Stages are read if their slugs are all different and new, and no two of them share a member or
claim one that is claimed already. -/
theorem acceptStagesFrom_eq_ok_iff {slugs : List Text} {index : Nat} {before : StagesSoFar}
    {vs : List Json} {ds : List StageDraft} :
    acceptStagesFrom slugs index before vs = .ok ds ↔
      List.Forall₂ (fun v d => DraftHeldBy slugs d v) vs ds ∧ before.IsFree ds := by
  induction vs generalizing index before ds with
  | nil =>
    simp only [acceptStagesFrom, Except.ok.injEq, List.forall₂_nil_left_iff]
    constructor
    · rintro rfl
      exact ⟨rfl, .nil, by simp, unclaimed_nil _⟩
    · rintro ⟨rfl, -⟩
      rfl
  | cons v vs ih =>
    simp only [acceptStagesFrom, bind_eq_ok_iff, Prod.exists, pure_eq_ok_iff,
      acceptStage_eq_ok_iff, ih]
    constructor
    · rintro ⟨d, _, ⟨held, hslug, hms, rfl⟩, rest, ⟨hall, hfree⟩, rfl⟩
      exact ⟨.cons held hall, isFree_cons_iff.2 ⟨hslug, hms, hfree⟩⟩
    · rintro ⟨hall, hfree⟩
      cases hall with
      | cons held hall =>
        obtain ⟨hslug, hms, hrest⟩ := isFree_cons_iff.1 hfree
        exact ⟨_, _, ⟨held, hslug, hms, rfl⟩, _, ⟨hall, hrest⟩, rfl⟩

/-- The stage that a draft becomes. -/
def Validation.StageDraft.Becomes (d : StageDraft) (s : Stage) : Prop :=
  d.slug = s.slug ∧ d.name? = some s.displayName ∧ d.members = s.members

theorem finishStages_eq_ok_iff {index : Nat} {ds : List StageDraft} {ss : List Stage} :
    finishStages index ds = .ok ss ↔ List.Forall₂ StageDraft.Becomes ds ss := by
  induction ds generalizing index ss with
  | nil =>
    simp only [finishStages, Except.ok.injEq, List.forall₂_nil_left_iff]
    exact eq_comm
  | cons d ds ih =>
    rw [finishStages]
    constructor
    · intro h
      split at h
      · simp at h
      · next name hname =>
        obtain ⟨rest, hrest, rfl⟩ := map_eq_ok_iff.1 h
        exact .cons ⟨rfl, hname, rfl⟩ (ih.1 hrest)
    · intro h
      cases h with
      | cons hd hall =>
        rename_i s rest
        obtain ⟨hslug, hname, hms⟩ := hd
        simp only [hname, map_eq_ok_iff]
        exact ⟨rest, ih.2 hall, by rw [hslug, hms]⟩

theorem acceptStageName_eq_ok_some {slug name : Text} {v : Json} (hs : IsLabel slug)
    (h : acceptStageName slug v = .ok (some name)) : name ≠ [] ∧ name.isXmlText = true := by
  unfold acceptStageName at h
  split at h
  · next hv =>
    split at h
    · next t =>
      simp only [map_eq_ok_iff, checkXml_eq_ok_iff, Option.some.injEq] at h
      obtain ⟨-, hx, rfl⟩ := h
      exact ⟨by rintro rfl; simp [Json.isTruthy] at hv, hx⟩
    · simp at h
  · simp only [map_eq_ok_iff, checkXml_eq_ok_iff, Option.some.injEq] at h
    obtain ⟨-, hx, rfl⟩ := h
    exact ⟨hs.ne_nil, hx⟩

/-- A name that is not empty is read as it stands. -/
theorem acceptStageName_str {slug name : Text} (hne : name ≠ []) (hx : name.isXmlText = true) :
    acceptStageName slug (.str name) = .ok (some name) := by
  have htruthy : Json.isTruthy (.str name) = true := by
    cases name <;> simp [Json.isTruthy] at hne ⊢
  rw [acceptStageName, if_pos htruthy]
  simp [hx]

/-! ## Patterns -/

namespace Pattern

/-- What is asked of a pattern, given the slugs of the tasks. -/
structure Sound (slugs : List Text) (p : Pattern) : Prop where
  /-- It has a member. -/
  members_ne_nil : p.members ≠ []
  /-- Its members are tasks. -/
  members_subset : ∀ m ∈ p.members, m ∈ slugs
  /-- The sources of its conditions are tasks. -/
  sources : ∀ c ∈ p.conditions, c.source ∈ slugs
  /-- The targets of its conditions are tasks. -/
  targets : ∀ c ∈ p.conditions, c.target ∈ slugs
  /-- The outcomes of its conditions may stand in CDATA sections. -/
  outcomes : ∀ c ∈ p.conditions, IsOutcome c.outcome

/-- A value is an object that the pattern is read from. -/
structure HeldBy (slugs : List Text) (p : Pattern) (v : Json) : Prop where
  /-- It is an object. -/
  isObject : ∃ members, v = .obj members
  /-- It holds the kind. -/
  kind : (v.getD "type").text?.bind PatternKind.ofWord? = some p.kind
  /-- It holds the members. -/
  members : v.getD "tasks" = .arr (p.members.map .str)
  /-- The conditions are read from it. -/
  conditions : (v.getD "conditions" = .null ∧ p.conditions = []) ∨
    ∃ vs, v.getD "conditions" = .arr vs ∧
      List.Forall₂ (fun v c => acceptCondition slugs v = .ok c) vs p.conditions

end Pattern

/-- An accepted condition leads from a task to a task, on a fitting outcome. -/
theorem acceptCondition_eq_ok {slugs : List Text} {v : Json} {c : Condition}
    (h : acceptCondition slugs v = .ok c) :
    c.source ∈ slugs ∧ c.target ∈ slugs ∧ IsOutcome c.outcome := by
  unfold acceptCondition at h
  split at h
  · split at h
    · next source target outcome hs ht ho =>
      simp only [error_bind, guard_eq_ok_iff, Bool.not_eq_true, Bool.not_eq_false', not_not] at h
      obtain ⟨hx, hend, hsource, htarget, h⟩ := h
      have hc := (label?_eq_some_iff.1 ho).2
      split at h
      · simp at h
      · simp at h
      · obtain rfl := Except.ok.inj h
        exact ⟨hsource, htarget, ⟨hc, by simpa using hx⟩, by simpa using hend⟩
    · simp at h
  · simp at h

theorem acceptConditionsFrom_eq_ok_iff {slugs : List Text} {pattern index : Nat} {vs : List Json}
    {cs : List Condition} :
    acceptConditionsFrom slugs pattern index vs = .ok cs ↔
      List.Forall₂ (fun v c => acceptCondition slugs v = .ok c) vs cs := by
  induction vs generalizing index cs with
  | nil =>
    simp only [acceptConditionsFrom, Except.ok.injEq, List.forall₂_nil_left_iff]
    exact eq_comm
  | cons v vs ih =>
    rw [acceptConditionsFrom]
    constructor
    · intro h
      split at h
      · simp at h
      · next c hc =>
        obtain ⟨rest, hrest, rfl⟩ := map_eq_ok_iff.1 h
        exact .cons hc (ih.1 hrest)
    · intro h
      cases h with
      | cons hc hall => simp [hc, ih.2 hall]

theorem acceptMembers_eq_ok_iff {slugs : List Text} {index : Nat} {vs : List Json}
    {ms : List Text} :
    acceptMembers slugs index vs = .ok ms ↔ vs = ms.map .str ∧ ∀ m ∈ ms, m ∈ slugs := by
  induction vs generalizing ms with
  | nil =>
    simp only [acceptMembers, Except.ok.injEq]
    constructor
    · rintro rfl
      simp
    · rintro ⟨h, -⟩
      exact (List.map_eq_nil_iff.1 h.symm).symm
  | cons v vs ih =>
    simp only [acceptMembers, bind_eq_ok_iff, atEntry_eq_ok_iff, ih, pure_eq_ok_iff]
    constructor
    · rintro ⟨_, hx, m, rfl, rest, ⟨rfl, hrest⟩, rfl⟩
      obtain ⟨rfl, hm⟩ := acceptMember_eq_ok_iff.1 hx
      exact ⟨rfl, by simpa using ⟨hm, hrest⟩⟩
    · rintro ⟨hvs, hms⟩
      cases ms with
      | nil => simp at hvs
      | cons m ms =>
        obtain ⟨rfl, rfl⟩ := List.cons.inj hvs
        exact ⟨_, acceptMember_eq_ok_iff.2 ⟨rfl, hms m (by simp)⟩, m, rfl, ms,
          ⟨rfl, fun k hk => hms k (by simp [hk])⟩, rfl⟩

/-- A pattern is read from an object that holds it, if its members are tasks. -/
theorem acceptPattern_eq_ok_iff {slugs : List Text} {index : Nat} {v : Json} {p : Pattern} :
    acceptPattern slugs index v = .ok p ↔
      p.HeldBy slugs v ∧ p.members ≠ [] ∧ ∀ m ∈ p.members, m ∈ slugs := by
  unfold acceptPattern
  split
  · next members =>
    constructor
    · intro h
      split at h
      · simp at h
      · next kind hkind =>
        split at h
        · next x rest hms =>
          obtain ⟨ms, hread, h⟩ := bind_eq_ok_iff.1 h
          obtain ⟨hvs, hsub⟩ := acceptMembers_eq_ok_iff.1 hread
          have hne : ms ≠ [] := by
            rintro rfl
            simp at hvs
          split at h
          · next hnull =>
            obtain rfl := pure_eq_ok_iff.1 h
            exact ⟨⟨⟨members, rfl⟩, hkind, by rw [hms, hvs], .inl ⟨hnull, rfl⟩⟩, hne, hsub⟩
          · next vs harr =>
            obtain ⟨cs, hcs, h⟩ := bind_eq_ok_iff.1 h
            obtain rfl := pure_eq_ok_iff.1 h
            exact ⟨⟨⟨members, rfl⟩, hkind, by rw [hms, hvs],
              .inr ⟨vs, harr, acceptConditionsFrom_eq_ok_iff.1 hcs⟩⟩, hne, hsub⟩
          · simp at h
        · simp at h
    · rintro ⟨held, hne, hsub⟩
      rw [held.kind, held.members]
      obtain ⟨m, ms, hms⟩ := List.exists_cons_of_ne_nil hne
      have hread : acceptMembers slugs index (p.members.map .str) = .ok p.members :=
        acceptMembers_eq_ok_iff.2 ⟨rfl, hsub⟩
      rw [hms, List.map_cons] at hread ⊢
      simp only [bind_eq_ok_iff]
      refine ⟨_, hread, ?_⟩
      rcases held.conditions with ⟨hnull, hnone⟩ | ⟨vs, harr, hall⟩
      · rw [hnull, pure_eq_ok_iff, ← hms, ← hnone]
      · rw [harr]
        simp only [bind_eq_ok_iff]
        exact ⟨_, acceptConditionsFrom_eq_ok_iff.2 hall, by rw [pure_eq_ok_iff, ← hms]⟩
  · next hv =>
    simp only [reduceCtorEq, false_iff]
    rintro ⟨held, -⟩
    obtain ⟨members, rfl⟩ := held.isObject
    exact hv members rfl

theorem acceptPatternsFrom_eq_ok_iff {slugs : List Text} {index : Nat} {vs : List Json}
    {ps : List Pattern} :
    acceptPatternsFrom slugs index vs = .ok ps ↔
      List.Forall₂ (fun v p => Pattern.HeldBy slugs p v ∧ p.members ≠ [] ∧
        ∀ m ∈ p.members, m ∈ slugs) vs ps := by
  induction vs generalizing index ps with
  | nil =>
    simp only [acceptPatternsFrom, Except.ok.injEq, List.forall₂_nil_left_iff]
    exact eq_comm
  | cons v vs ih =>
    simp only [acceptPatternsFrom, bind_eq_ok_iff, pure_eq_ok_iff, acceptPattern_eq_ok_iff, ih]
    constructor
    · rintro ⟨p, hp, rest, hrest, rfl⟩
      exact .cons hp hrest
    · intro h
      cases h with
      | cons hp hrest => exact ⟨_, hp, _, hrest, rfl⟩

/-- What the conditions of a pattern that is read satisfy. -/
theorem Pattern.HeldBy.sound {slugs : List Text} {p : Pattern} {v : Json}
    (h : p.HeldBy slugs v) (hne : p.members ≠ []) (hsub : ∀ m ∈ p.members, m ∈ slugs) :
    p.Sound slugs := by
  have key : ∀ c ∈ p.conditions, c.source ∈ slugs ∧ c.target ∈ slugs ∧ IsOutcome c.outcome := by
    intro c hc
    rcases h.conditions with ⟨-, hnone⟩ | ⟨vs, -, hall⟩
    · rw [hnone] at hc
      exact absurd hc (by simp)
    · obtain ⟨v, -, hv⟩ := exists_mem_left_of_forall₂ hall hc
      exact acceptCondition_eq_ok hv
  exact ⟨hne, hsub, fun c hc => (key c hc).1, fun c hc => (key c hc).2.1,
    fun c hc => (key c hc).2.2⟩

end CasePlan
