import CasePlan.Logic.Validation
import CasePlan.Proofs.Result

/-!
# Where a rejection points

The lists of a description are read entry by entry, and what an entry may say depends on those
before it.  A rejection that gives the number of an entry gives that of the first one at fault:
without it and what follows the list is read to its end, and nothing that follows matters.

* `readEntries`: entries read one after another, with what those before have left behind.
  `acceptTasksFrom_eq`, `acceptStagesFrom_eq`, `acceptPatternsFrom_eq`: tasks, stages and patterns
  are read like that.
* `readEntries_eq_error`: reading stops at an entry that fails after all before it are read.
* `ParseError.Names`: an error gives no other number than that of an entry.  `names_acceptStage`,
  `names_acceptPattern`: so do all errors that the entry is read with.
* `rejection_points_at_first`: the three lists of a description.
-/

namespace CasePlan

open Validation

variable {ε σ β : Type}

/-! ## Reading entry by entry -/

/-- Reads entries from a number on; each is read with what those before have left behind. -/
def readEntries (read : Nat → σ → Json → Except ε (β × σ)) (index : Nat) (state : σ) :
    List Json → Except ε (List β)
  | [] => .ok []
  | v :: rest => do
    let (entry, state) ← read index state v
    let entries ← readEntries read (index + 1) state rest
    pure (entry :: entries)

variable {read : Nat → σ → Json → Except ε (β × σ)} {e : ε}

theorem readEntries_cons_of_ok {index : Nat} {state after : σ} {v : Json} {entry : β}
    (h : read index state v = .ok (entry, after)) (vs : List Json) :
    readEntries read index state (v :: vs) =
      (readEntries read (index + 1) after vs).map (entry :: ·) := by
  rw [readEntries, h, ok_bind]
  show (readEntries read (index + 1) after vs >>= fun entries => pure (entry :: entries)) = _
  cases readEntries read (index + 1) after vs <;> rfl

/-- Reading stops at an entry that fails after all before it are read; what follows is not looked
at. -/
theorem readEntries_eq_error {index : Nat} {state : σ} {vs : List Json}
    (h : readEntries read index state vs = .error e) :
    ∃ done v rest, vs = done ++ v :: rest ∧
      (∃ entries, readEntries read index state done = .ok entries) ∧
      (∃ state', read (index + done.length) state' v = .error e) ∧
      ∀ others, readEntries read index state (done ++ v :: others) = .error e := by
  induction vs generalizing index state with
  | nil => cases h
  | cons v vs ih =>
    rw [readEntries] at h
    rcases bind_eq_error_iff.1 h with hfails | ⟨⟨entry, after⟩, hread, hlater⟩
    · refine ⟨[], v, vs, rfl, ⟨[], rfl⟩, ⟨state, hfails⟩, fun others => ?_⟩
      show readEntries read index state (v :: others) = .error e
      rw [readEntries, hfails, error_bind]
    · rcases bind_eq_error_iff.1 hlater with hrest | ⟨_, -, hpure⟩
      · obtain ⟨done, w, rest, rfl, ⟨entries, hdone⟩, ⟨state', hfails⟩, hothers⟩ := ih hrest
        refine ⟨v :: done, w, rest, rfl, ⟨entry :: entries, ?_⟩, ⟨state', ?_⟩, fun others => ?_⟩
        · rw [readEntries_cons_of_ok hread, hdone]
          rfl
        · rw [List.length_cons, ← hfails]
          congr 1
          omega
        · show readEntries read index state (v :: (done ++ w :: others)) = .error e
          rw [readEntries_cons_of_ok hread, hothers]
          rfl
      · cases hpure

/-- A list is not read because of an entry, whatever follows that entry. -/
structure StopsAt {α : Type} (read : List Json → Except ε α) (vs : List Json) (i : Nat) (e : ε) :
    Prop where
  /-- It is an entry of the list. -/
  lt_length : i < vs.length
  /-- Up to it the list is not read for the same reason, whatever follows. -/
  eq_error : ∀ others, read (vs.take (i + 1) ++ others) = .error e

/-- If the readers of entries name none but the entry that they read, then what is named is the
first entry at fault. -/
theorem readEntries_stopsAt (number? : ε → Option Nat) {state : σ} {vs : List Json} {i : Nat}
    (hnames : ∀ index state v, read index state v = .error e → ∀ j ∈ number? e, j = index)
    (h : readEntries read 0 state vs = .error e) (hi : number? e = some i) :
    StopsAt (readEntries read 0 state) vs i e ∧
      ∃ entries, readEntries read 0 state (vs.take i) = .ok entries := by
  obtain ⟨done, v, rest, rfl, hdone, ⟨state', hfails⟩, hothers⟩ := readEntries_eq_error h
  have hlength : i = done.length := by
    rw [hnames _ _ _ hfails i hi, Nat.zero_add]
  have htake : (done ++ v :: rest).take (i + 1) = done ++ [v] := by
    rw [hlength, List.take_length_add_append]
    rfl
  refine ⟨⟨?_, fun others => ?_⟩, ?_⟩
  · rw [hlength, List.length_append, List.length_cons]
    omega
  · rw [htake, List.append_assoc]
    exact hothers others
  · rw [hlength, List.take_left]
    exact hdone

/-! ## Tasks, stages and patterns -/

/-- Reads the task of a number; the slugs of the tasks so far are left behind. -/
def acceptTaskAt (index : Nat) (seen : List Text) (v : Json) :
    Except Rejection (Task × List Text) :=
  match acceptTask seen v with
  | .error fault => .error (.entry .tasks index fault)
  | .ok task => .ok (task, task.slug :: seen)

/-- Reads the pattern of a number; nothing is left behind. -/
def acceptPatternAt (slugs : List Text) (index : Nat) (_ : Unit) (v : Json) :
    Except ParseError (Pattern × Unit) :=
  (acceptPattern slugs index v).map (·, ())

theorem acceptTasksFrom_eq (index : Nat) (seen : List Text) (vs : List Json) :
    acceptTasksFrom index seen vs = readEntries acceptTaskAt index seen vs := by
  induction vs generalizing index seen with
  | nil => rfl
  | cons v vs ih =>
    cases h : acceptTask seen v with
    | error fault => rw [acceptTasksFrom, readEntries, acceptTaskAt, h, error_bind]
    | ok task =>
      have hread : acceptTaskAt index seen v = .ok (task, task.slug :: seen) := by
        rw [acceptTaskAt, h]
      rw [acceptTasksFrom, h, readEntries_cons_of_ok hread, ← ih]

theorem acceptStagesFrom_eq (slugs : List Text) (index : Nat) (before : StagesSoFar)
    (vs : List Json) :
    acceptStagesFrom slugs index before vs = readEntries (acceptStage slugs) index before vs := by
  induction vs generalizing index before with
  | nil => rfl
  | cons v vs ih =>
    rw [acceptStagesFrom, readEntries]
    simp only [ih]

theorem acceptPatternsFrom_eq (slugs : List Text) (index : Nat) (vs : List Json) :
    acceptPatternsFrom slugs index vs = readEntries (acceptPatternAt slugs) index () vs := by
  induction vs generalizing index with
  | nil => rfl
  | cons v vs ih =>
    cases h : acceptPattern slugs index v with
    | error e => rw [acceptPatternsFrom, readEntries, acceptPatternAt, h, error_bind]; rfl
    | ok pattern =>
      have hread : acceptPatternAt slugs index () v = .ok (pattern, ()) := by
        rw [acceptPatternAt, h]
        rfl
      rw [acceptPatternsFrom, h, ok_bind, readEntries_cons_of_ok hread, ← ih]
      cases acceptPatternsFrom slugs (index + 1) vs <;> rfl

/-! ## Which entry an error names -/

/-- The number of the entry at fault, if the error is a rejection that gives one. -/
def ParseError.index? : ParseError → Option Nat
  | .rejected reason => reason.index?
  | _ => none

/-- An error gives no other number than that of an entry. -/
def ParseError.Names (index : Nat) (e : ParseError) : Prop := ∀ i ∈ e.index?, i = index

variable {slugs : List Text} {index : Nat} {e : ParseError}

theorem names_entry (list : Section) (index : Nat) (fault : EntryFault) :
    ParseError.Names index (.rejected (.entry list index fault)) :=
  fun _ hi => (Option.some.inj hi).symm

theorem names_atEntry {α : Type} {list : Section} {x : Except EntryFault α}
    (h : atEntry list index x = .error e) : e.Names index := by
  cases x with
  | ok a => cases h
  | error fault =>
    cases h
    exact names_entry list index fault

/-- A member that cannot be looked up names no entry. -/
theorem names_acceptMember {v : Json} (h : acceptMember slugs v = .error e) : e.Names index := by
  unfold acceptMember at h
  split at h <;> cases h <;> exact fun _ hi => nomatch hi

theorem names_claimMembers {stage : Text} {claimed : List (Text × Text)} {vs : List Json}
    (h : claimMembers slugs index stage claimed vs = .error e) : e.Names index := by
  induction vs generalizing claimed with
  | nil => cases h
  | cons v vs ih =>
    rw [claimMembers] at h
    rcases bind_eq_error_iff.1 h with hmember | ⟨_, -, hentry⟩
    · exact names_acceptMember hmember
    rcases bind_eq_error_iff.1 hentry with hfault | ⟨slug, -, hclaim⟩
    · exact names_atEntry hfault
    split at hclaim
    · cases hclaim
      exact names_entry _ _ _
    · rcases bind_eq_error_iff.1 hclaim with hrest | ⟨_, -, hpure⟩
      · exact ih hrest
      · cases hpure

theorem names_acceptStage {before : StagesSoFar} {v : Json}
    (h : acceptStage slugs index before v = .error e) : e.Names index := by
  unfold acceptStage at h
  split at h
  · rcases bind_eq_error_iff.1 h with hslug | ⟨slug, -, htail⟩
    · exact names_atEntry hslug
    by_cases htaken : slug ∈ slugs ∨ slug ∈ before.slugs
    · rw [if_pos htaken] at htail
      cases htail
      exact names_entry _ _ _
    rw [if_neg htaken] at htail
    split at htail
    · rcases bind_eq_error_iff.1 htail with hclaim | ⟨_, -, hname⟩
      · exact names_claimMembers hclaim
      rcases bind_eq_error_iff.1 hname with hfault | ⟨_, -, hpure⟩
      · exact names_atEntry hfault
      · cases hpure
    · cases htail
      exact names_entry _ _ _
  · cases h
    exact names_entry _ _ _

theorem names_acceptMembers {vs : List Json} (h : acceptMembers slugs index vs = .error e) :
    e.Names index := by
  induction vs with
  | nil => cases h
  | cons v vs ih =>
    rw [acceptMembers] at h
    rcases bind_eq_error_iff.1 h with hmember | ⟨_, -, hentry⟩
    · exact names_acceptMember hmember
    rcases bind_eq_error_iff.1 hentry with hfault | ⟨_, -, hlater⟩
    · exact names_atEntry hfault
    rcases bind_eq_error_iff.1 hlater with hrest | ⟨_, -, hpure⟩
    · exact ih hrest
    · cases hpure

/-- A condition at fault names the pattern that it stands in. -/
theorem names_acceptConditionsFrom {k : Nat} {vs : List Json}
    (h : acceptConditionsFrom slugs index k vs = .error e) : e.Names index := by
  induction vs generalizing k with
  | nil => cases h
  | cons v vs ih =>
    rw [acceptConditionsFrom] at h
    split at h
    · cases h
      exact fun _ hi => (Option.some.inj hi).symm
    · exact ih (map_eq_error_iff.1 h)

theorem names_acceptPattern {v : Json} (h : acceptPattern slugs index v = .error e) :
    e.Names index := by
  unfold acceptPattern at h
  split at h
  · split at h
    · cases h
      exact names_entry _ _ _
    · split at h
      · rcases bind_eq_error_iff.1 h with hmembers | ⟨_, -, hconditions⟩
        · exact names_acceptMembers hmembers
        split at hconditions
        · cases hconditions
        · rcases bind_eq_error_iff.1 hconditions with hfault | ⟨_, -, hpure⟩
          · exact names_acceptConditionsFrom hfault
          · cases hpure
        · cases hconditions
          exact names_entry _ _ _
      · cases h
        exact names_entry _ _ _
  · cases h
    exact names_entry _ _ _

/-! ## The lists of a description -/

/-- A rejection that gives the number of an entry gives that of the first one at fault.  Cut after
that entry the list is rejected for the same reason, whatever follows instead; cut before it the
list is read.  There has to be a task, so the first task is never cut off. -/
theorem rejection_points_at_first (slugs : List Text) :
    (∀ vs reason i, acceptTasks (.arr vs) = .error reason → reason.index? = some i →
      StopsAt (fun vs => acceptTasks (.arr vs)) vs i reason ∧
        (0 < i → ∃ tasks, acceptTasks (.arr (vs.take i)) = .ok tasks)) ∧
    (∀ vs reason i, acceptStages slugs (.arr vs) = .error (.rejected reason) →
      reason.index? = some i →
      StopsAt (fun vs => acceptStages slugs (.arr vs)) vs i (.rejected reason) ∧
        ∃ stages, acceptStages slugs (.arr (vs.take i)) = .ok stages) ∧
    ∀ vs reason i, acceptPatterns slugs (.arr vs) = .error (.rejected reason) →
      reason.index? = some i →
      StopsAt (fun vs => acceptPatterns slugs (.arr vs)) vs i (.rejected reason) ∧
        ∃ patterns, acceptPatterns slugs (.arr (vs.take i)) = .ok patterns := by
  refine ⟨?tasks, ?stages, ?patterns⟩
  case tasks =>
    intro vs reason i h hi
    -- a list that is not empty is read entry by entry
    have hread : ∀ v vs, acceptTasks (.arr (v :: vs)) = readEntries acceptTaskAt 0 [] (v :: vs) :=
      fun v vs => acceptTasksFrom_eq 0 [] (v :: vs)
    obtain ⟨v, vs, rfl⟩ : ∃ v rest, vs = v :: rest := by
      cases vs with
      | nil =>
        cases h
        cases hi
      | cons v vs => exact ⟨v, vs, rfl⟩
    have hnames : ∀ index seen v, acceptTaskAt index seen v = .error reason →
        ∀ j ∈ reason.index?, j = index := by
      intro index seen v hfails j hj
      unfold acceptTaskAt at hfails
      split at hfails
      · cases hfails
        exact (Option.some.inj hj).symm
      · cases hfails
    rw [hread] at h
    obtain ⟨⟨hlt, hothers⟩, hbefore⟩ := readEntries_stopsAt Rejection.index? hnames h hi
    refine ⟨⟨hlt, fun others => ?_⟩, fun hpos => ?_⟩
    · rw [List.take_succ_cons, List.cons_append, hread]
      exact hothers others
    · obtain ⟨j, rfl⟩ := Nat.exists_eq_succ_of_ne_zero (Nat.ne_of_gt hpos)
      rw [List.take_succ_cons, hread]
      exact hbefore
  case stages =>
    intro vs reason i h hi
    have hread : ∀ vs, acceptStages slugs (.arr vs) = readEntries (acceptStage slugs) 0 {} vs :=
      acceptStagesFrom_eq slugs 0 {}
    simp only [hread] at h ⊢
    exact readEntries_stopsAt ParseError.index? (fun _ _ _ => names_acceptStage) h hi
  case patterns =>
    intro vs reason i h hi
    have hread : ∀ vs, acceptPatterns slugs (.arr vs) = readEntries (acceptPatternAt slugs) 0 () vs :=
      acceptPatternsFrom_eq slugs 0
    simp only [hread] at h ⊢
    exact readEntries_stopsAt ParseError.index?
      (fun _ _ _ hfails => names_acceptPattern (map_eq_error_iff.1 hfails)) h hi

/-- Entries of each list, of which the second is at fault and the third is no object. -/
theorem rejection_points_at_first_second :
    let task : Json := .obj [("slug", .str "a"), ("displayName", .str "A"),
      ("outcomes", .arr [.str "done"])]
    let stage : Json := .obj [("slug", .str "s"), ("tasks", .arr [.str "a"])]
    let pattern : Json := .obj [("type", .str "sequential"), ("tasks", .arr [.str "a"])]
    let other : Json := .obj [("type", .str "sequential"), ("tasks", .arr [.str "b"])]
    (acceptTasks (.arr [task, task, .null]) = .error (.entry .tasks 1 (.duplicateSlug "a")) ∧
      ∃ tasks, acceptTasks (.arr [task]) = .ok tasks) ∧
    (acceptStages ["a"] (.arr [stage, stage, .null]) =
        .error (.rejected (.entry .stages 1 (.takenSlug "s"))) ∧
      ∃ stages, acceptStages ["a"] (.arr [stage]) = .ok stages) ∧
    acceptPatterns ["a"] (.arr [pattern, other, .null]) =
        .error (.rejected (.entry .patterns 1 (.unknownTask "b"))) ∧
      ∃ patterns, acceptPatterns ["a"] (.arr [pattern]) = .ok patterns := by
  intro task stage pattern other
  have htasks : acceptTasks (.arr [task, task, .null]) =
      .error (.entry .tasks 1 (.duplicateSlug "a")) := rfl
  have hstages : acceptStages ["a"] (.arr [stage, stage, .null]) =
      .error (.rejected (.entry .stages 1 (.takenSlug "s"))) := rfl
  have hpatterns : acceptPatterns ["a"] (.arr [pattern, other, .null]) =
      .error (.rejected (.entry .patterns 1 (.unknownTask "b"))) := rfl
  obtain ⟨ofTasks, ofStages, ofPatterns⟩ := rejection_points_at_first ["a"]
  exact ⟨⟨htasks, (ofTasks _ _ 1 htasks rfl).2 Nat.one_pos⟩,
    ⟨hstages, (ofStages _ _ 1 hstages rfl).2⟩, hpatterns, (ofPatterns _ _ 1 hpatterns rfl).2⟩

end CasePlan
