import CasePlan.Logic.Transition
import CasePlan.Proofs.Distinct
import CasePlan.Proofs.Logic.Lookup
import Mathlib.Data.List.Count

/-!
# Expanding patterns

The kind of a pattern implies pairs of its members, each at one or more places.  A pair gets the
conditions that the pattern declares for it, or else the implied transition, where it is implied
first; the other conditions follow.

* `Pattern.ImpliesAt`, `Pattern.Asks`: what the kind of a pattern implies.
* `Pattern.Expands`: what the transitions of a pattern should be; `Logic.Collects`: and those of a
  description.
* `transitions_eq`: the transitions of a pattern, pair by pair.
* `filter_transitions_eq`, `pairwise_transitions`: those of one pair, and in which order pairs come.
* `expands_transitions`, `collects_transitions`: the transitions are what they should be.
-/

namespace CasePlan

namespace Pattern

/-! ## What the kind of a pattern implies -/

/-- The kind of a pattern implies a pair at a place: neighbours in a sequence, or the first member
and another one. -/
def ImpliesAt (p : Pattern) (place : Nat) (pair : Text × Text) : Prop :=
  match p.kind with
  | .sequential | .approvalChain | .retry =>
    p.members[place]? = some pair.1 ∧ p.members[place + 1]? = some pair.2
  | .parallel => False
  | .conditional => p.members[0]? = some pair.1 ∧ p.members[place + 1]? = some pair.2

/-- The kind of a pattern implies a pair. -/
def Implies (p : Pattern) (pair : Text × Text) : Prop := ∃ place, p.ImpliesAt place pair

/-- The pairs that the kind of a pattern implies, place by place. -/
def pairs (p : Pattern) : List (Text × Text) :=
  match p.kind with
  | .sequential | .approvalChain | .retry => neighbours p.members
  | .parallel => []
  | .conditional =>
    match p.members with
    | [] => []
    | decision :: branches => branches.map (decision, ·)

/-- The transition that is implied for a pair. -/
def step (p : Pattern) (task? : Text → Option Task) (pair : Text × Text) : Transition :=
  ⟨pair.1, pair.2,
    match p.kind with
    | .approvalChain => approval task? pair.1 pair.2
    | _ => none⟩

variable {p : Pattern} {task? : Text → Option Task}

theorem getElem?_neighbours {α : Type} {items : List α} {place : Nat} {x : α × α} :
    (neighbours items)[place]? = some x ↔
      items[place]? = some x.1 ∧ items[place + 1]? = some x.2 := by
  rw [neighbours, List.getElem?_zip_eq_some, List.getElem?_tail]

theorem impliesAt_iff {place : Nat} {pair : Text × Text} :
    p.ImpliesAt place pair ↔ p.pairs[place]? = some pair := by
  obtain ⟨kind, members, conditions⟩ := p
  cases kind with
  | sequential => exact getElem?_neighbours.symm
  | approvalChain => exact getElem?_neighbours.symm
  | retry => exact getElem?_neighbours.symm
  | parallel => simp [ImpliesAt, pairs]
  | conditional =>
    obtain ⟨source, target⟩ := pair
    cases members with
    | nil => simp [ImpliesAt, pairs]
    | cons decision branches =>
      simp only [ImpliesAt, pairs, List.getElem?_cons_zero, List.getElem?_cons_succ,
        List.getElem?_map, Option.map_eq_some_iff, Option.some.injEq, Prod.mk.injEq]
      constructor
      · rintro ⟨rfl, h⟩
        exact ⟨target, h, rfl, rfl⟩
      · rintro ⟨branch, h, rfl, rfl⟩
        exact ⟨rfl, h⟩

theorem implies_iff {pair : Text × Text} : p.Implies pair ↔ pair ∈ p.pairs := by
  rw [Implies, List.mem_iff_getElem?]
  exact exists_congr fun _ => impliesAt_iff

/-- Both tasks of an implied pair are members. -/
theorem Implies.mem_members {pair : Text × Text} (h : p.Implies pair) :
    pair.1 ∈ p.members ∧ pair.2 ∈ p.members := by
  have hplaces : ∀ {i j : Nat}, p.members[i]? = some pair.1 ∧ p.members[j]? = some pair.2 →
      pair.1 ∈ p.members ∧ pair.2 ∈ p.members :=
    fun h => ⟨List.mem_of_getElem? h.1, List.mem_of_getElem? h.2⟩
  obtain ⟨place, h⟩ := h
  unfold ImpliesAt at h
  cases hk : p.kind with
  | parallel =>
    rw [hk] at h
    exact h.elim
  | _ =>
    rw [hk] at h
    exact hplaces h

/-- What an implied transition asks for is an outcome of its source. -/
theorem exists_outcome_of_step {pair : Text × Text} {c : Condition}
    (h : c ∈ (p.step task? pair).condition) :
    ∃ task, task? pair.1 = some task ∧ c.outcome ∈ task.outcomes := by
  rw [step] at h
  split at h
  · obtain ⟨task, htask, h⟩ := Option.bind_eq_some_iff.1 h
    obtain ⟨outcome, houtcome, h⟩ := Option.bind_eq_some_iff.1 h
    obtain rfl := Option.some.inj h
    exact ⟨task, htask, List.mem_of_mem_head? houtcome⟩
  · exact absurd h (by simp)

instance (p : Pattern) (pair : Text × Text) : Decidable (p.Implies pair) :=
  decidable_of_iff (p.pairs.contains pair = true) (List.contains_iff_mem.trans implies_iff.symm)

/-! ## What the transitions should be -/

/-- The conditions that a pattern declares for pairs that its kind does not imply. -/
def others (p : Pattern) : List Condition := p.conditions.filter fun c => ¬p.Implies c.ends

/-- The condition on the transition that is implied for a pair: in an approval chain that the source
ended in its first outcome. -/
def Asks (logic : Logic) (p : Pattern) (pair : Text × Text) : Option Condition → Prop
  | none => p.kind ≠ .approvalChain
  | some c => p.kind = .approvalChain ∧ ∃ task ∈ logic.tasks, task.slug = pair.1 ∧
      ∃ outcome, task.outcomes.head? = some outcome ∧
        c = { source := pair.1, target := pair.2, outcome := outcome }

/-- The transitions of a pattern are what its kind implies and what it declares. -/
structure Expands (logic : Logic) (p : Pattern) (ts : List Transition) : Prop where
  /-- A condition is there as often as it is declared. -/
  count : ∀ c ∈ p.conditions, ts.count c.transition = p.conditions.count c
  /-- A pair for which conditions are declared has these, in order, and nothing else. -/
  declared : ∀ pair, p.declared pair ≠ [] →
    ts.filter (fun t => t.ends = pair) = (p.declared pair).map Condition.transition
  /-- Any other pair that the kind implies has the implied transition, once. -/
  implied : ∀ pair, p.declared pair = [] → p.Implies pair → ∃ condition?,
    p.Asks logic pair condition? ∧
      ts.filter (fun t => t.ends = pair) = [⟨pair.1, pair.2, condition?⟩]
  /-- All other pairs have nothing. -/
  none : ∀ pair, p.declared pair = [] → ¬p.Implies pair → ts.filter (fun t => t.ends = pair) = []
  /-- Pairs that are implied stand in the order of the places at which they are implied first. -/
  order : ts.Pairwise fun t u =>
    ∀ place, p.ImpliesAt place u.ends → ∃ earlier ≤ place, p.ImpliesAt earlier t.ends
  /-- The conditions for other pairs follow in the order in which they are declared. -/
  rest : ∃ placed, (∀ t ∈ placed, p.Implies t.ends) ∧
    ts = placed ++ p.others.map Condition.transition

/-! ## The transitions of a pattern -/

/-- What the kind of a pattern implies, pair by pair. -/
theorem implied_eq (p : Pattern) (task? : Text → Option Task) :
    p.implied task? = p.pairs.map (p.step task?) := by
  obtain ⟨kind, members, conditions⟩ := p
  cases kind with
  | conditional =>
    cases members with
    | nil => rfl
    | cons decision branches =>
      show _ = (branches.map (decision, ·)).map _
      rw [List.map_map]
      rfl
  | _ => rfl

/-- What a pair gets: the conditions declared for it, or else the implied transition. -/
def block (p : Pattern) (task? : Text → Option Task) (pair : Text × Text) : List Transition :=
  match p.declared pair with
  | [] => [p.step task? pair]
  | conditions => conditions.map Condition.transition

theorem block_of_nil {pair : Text × Text} (h : p.declared pair = []) :
    p.block task? pair = [p.step task? pair] := by
  rw [block, h]

theorem block_of_ne_nil {pair : Text × Text} (h : p.declared pair ≠ []) :
    p.block task? pair = (p.declared pair).map Condition.transition := by
  unfold block
  split
  · next hnil => exact absurd hnil h
  · rfl

/-- The transitions of a pattern, pair by pair. -/
theorem transitions_eq (p : Pattern) (task? : Text → Option Task) :
    p.transitions task? =
      p.pairs.eraseDups.flatMap (p.block task?) ++ p.others.map Condition.transition := by
  have hfirst : firstOfEnds (p.implied task?) = p.pairs.eraseDups.map (p.step task?) := by
    rw [implied_eq, firstOfEnds]
    exact eraseDupsBy_map (fun _ => rfl) p.pairs
  have hends : (p.pairs.eraseDups.map (p.step task?)).map Transition.ends = p.pairs.eraseDups := by
    rw [List.map_map]
    exact List.map_id _
  rw [transitions, hfirst, hends, List.flatMap_map, others]
  simp only [List.mem_eraseDups, implies_iff]
  rfl

/-! ## The transitions of a pair -/

theorem ends_of_mem_declared {pair : Text × Text} {c : Condition} (h : c ∈ p.declared pair) :
    c.ends = pair := by
  simpa using List.of_mem_filter h

theorem ends_of_mem_block (pair : Text × Text) : ∀ t ∈ p.block task? pair, t.ends = pair := by
  intro t ht
  by_cases h : p.declared pair = []
  · rw [block_of_nil h, List.mem_singleton] at ht
    rw [ht]
    rfl
  · rw [block_of_ne_nil h] at ht
    obtain ⟨c, hc, rfl⟩ := List.mem_map.1 ht
    exact ends_of_mem_declared hc

/-- The conditions declared for a pair that is not implied come at the end. -/
theorem filter_others (p : Pattern) (pair : Text × Text) :
    (p.others.map Condition.transition).filter (fun t => t.ends = pair) =
      if p.Implies pair then [] else (p.declared pair).map Condition.transition := by
  rw [List.filter_map, others, List.filter_filter]
  split
  · next h =>
    rw [List.map_eq_nil_iff, List.filter_eq_nil_iff]
    intro c _ hc
    rw [Bool.and_eq_true, decide_eq_true_eq, Function.comp_apply, decide_eq_true_eq] at hc
    have hends : c.ends = pair := hc.1
    exact hc.2 (hends ▸ h)
  · next h =>
    refine congrArg _ (List.filter_congr fun c _ => ?_)
    rw [Function.comp_apply, ← Bool.decide_and]
    refine decide_eq_decide.2 ⟨And.left, fun hc => ⟨hc, ?_⟩⟩
    have hends : c.ends = pair := hc
    rwa [hends]

/-- The transitions of a pair. -/
theorem filter_transitions_eq (p : Pattern) (task? : Text → Option Task) (pair : Text × Text) :
    (p.transitions task?).filter (fun t => t.ends = pair) =
      if p.Implies pair then p.block task? pair
      else (p.declared pair).map Condition.transition := by
  rw [transitions_eq, List.filter_append, filter_others,
    filter_flatMap_eq ends_of_mem_block (nodup_eraseDups _)]
  simp only [List.mem_eraseDups, ← implies_iff]
  split
  · rw [List.append_nil]
  · rw [List.nil_append]

/-- A pattern has the transitions of the conditions that it declares, and the implied transitions
of all other pairs. -/
theorem mem_transitions_iff {t : Transition} :
    t ∈ p.transitions task? ↔ (∃ c ∈ p.conditions, t = c.transition) ∨
      p.Implies t.ends ∧ p.declared t.ends = [] ∧ t = p.step task? t.ends := by
  have hself : t ∈ p.transitions task? ↔
      t ∈ (p.transitions task?).filter fun u => u.ends = t.ends := by
    rw [List.mem_filter, and_iff_left (decide_eq_true rfl)]
  have hdeclared : t ∈ (p.declared t.ends).map Condition.transition ↔
      ∃ c ∈ p.conditions, t = c.transition := by
    rw [List.mem_map]
    constructor
    · rintro ⟨c, hc, rfl⟩
      exact ⟨c, List.mem_of_mem_filter hc, rfl⟩
    · rintro ⟨c, hc, rfl⟩
      exact ⟨c, List.mem_filter.2 ⟨hc, decide_eq_true rfl⟩, rfl⟩
  rw [hself, filter_transitions_eq, ← hdeclared]
  by_cases hnil : p.declared t.ends = []
  · rw [block_of_nil hnil, hnil]
    split
    · next h => simp [h]
    · next h => simp [h]
  · rw [block_of_ne_nil hnil, ite_self]
    simp [hnil]

/-! ## The order of pairs -/

/-- A pair whose transitions come before those of another is implied at a place before it. -/
theorem pairwise_transitions (p : Pattern) (task? : Text → Option Task) :
    (p.transitions task?).Pairwise fun t u =>
      ∀ place, p.ImpliesAt place u.ends → ∃ earlier ≤ place, p.ImpliesAt earlier t.ends := by
  have hothers : ∀ u ∈ p.others.map Condition.transition, ∀ place, ¬p.ImpliesAt place u.ends := by
    intro u hu place hplace
    obtain ⟨c, hc, rfl⟩ := List.mem_map.1 hu
    have hnot : ¬p.Implies c.ends := by simpa using List.of_mem_filter hc
    exact hnot ⟨place, hplace⟩
  rw [transitions_eq, List.pairwise_append, List.pairwise_flatMap]
  refine ⟨⟨fun pair _ => ?_, ?_⟩, ?_, fun _ _ u hu place h => absurd h (hothers u hu place)⟩
  · -- the transitions of one pair
    refine List.pairwise_of_forall_mem_list fun t ht u hu place h => ⟨place, Nat.le_refl _, ?_⟩
    rwa [ends_of_mem_block pair t ht, ← ends_of_mem_block pair u hu]
  · -- those of two pairs that are implied
    refine (pairwise_idxOf_eraseDups p.pairs).imp_of_mem fun {a b} ha _ hlt t ht u hu place h => ?_
    have hmem := List.mem_eraseDups.1 ha
    rw [ends_of_mem_block b u hu, impliesAt_iff] at h
    refine ⟨p.pairs.idxOf a, Nat.le_trans (Nat.le_of_lt hlt) ?_, ?_⟩
    · exact idxOf_le_of_getElem? h
    · rw [ends_of_mem_block a t ht, impliesAt_iff]
      exact List.getElem?_idxOf hmem
  · exact List.pairwise_of_forall_mem_list fun _ _ u hu place h => absurd h (hothers u hu place)

/-! ## The transitions are what they should be -/

/-- The implied transition of a pair has the condition that the kind of the pattern asks for. -/
theorem asks_iff {logic : Logic} (hc : logic.Consistent) (hp : p ∈ logic.patterns)
    {pair : Text × Text} (h : p.Implies pair) {condition? : Option Condition} :
    p.Asks logic pair condition? ↔ condition? = (p.step logic.task? pair).condition := by
  have hsource := (hc.pattern p hp).members_subset _ h.mem_members.1
  obtain ⟨task, htask, hslug, hfind⟩ := hc.exists_task? hsource
  obtain ⟨outcome, rest, houtcomes⟩ :=
    List.exists_cons_of_ne_nil (hc.task task htask).outcomes_ne_nil
  have happroval : approval logic.task? pair.1 pair.2 =
      some { source := pair.1, target := pair.2, outcome := outcome } := by
    have hsome : logic.task? pair.1 = some task := hfind
    rw [approval, hsome, Option.bind_eq_bind, Option.bind_some, houtcomes]
    rfl
  by_cases hk : p.kind = .approvalChain
  · have hstep : (p.step logic.task? pair).condition =
        some { source := pair.1, target := pair.2, outcome := outcome } := by
      rw [step, hk]
      exact happroval
    rw [hstep]
    cases condition? with
    | none => simp [Asks, hk]
    | some c =>
      rw [Asks, Option.some.injEq]
      constructor
      · rintro ⟨-, other, hother, hotherSlug, outcome', houtcome', rfl⟩
        have hsame : other = task :=
          List.inj_on_of_nodup_map hc.nodup_slugs hother htask (hotherSlug.trans hslug.symm)
        rw [hsame, houtcomes, List.head?_cons, Option.some.injEq] at houtcome'
        rw [houtcome']
      · rintro rfl
        exact ⟨hk, task, htask, hslug, outcome, by rw [houtcomes, List.head?_cons], rfl⟩
  · have hstep : (p.step logic.task? pair).condition = none := by
      rw [step]
      split
      · next hkind => exact absurd hkind hk
      · rfl
    rw [hstep]
    cases condition? with
    | none => simp [Asks, hk]
    | some c => simp [Asks, hk]

theorem transition_injective : Function.Injective Condition.transition := by
  intro c d h
  exact Option.some.inj (congrArg Transition.condition h)

/-- A condition is among the transitions as often as it is declared. -/
theorem count_transition (p : Pattern) (task? : Text → Option Task) {c : Condition}
    (hc : c ∈ p.conditions) :
    (p.transitions task?).count c.transition = p.conditions.count c := by
  have hmem : c ∈ p.declared c.ends := List.mem_filter.2 ⟨hc, decide_eq_true rfl⟩
  have hends : c.transition.ends = c.ends := rfl
  calc (p.transitions task?).count c.transition
      = ((p.transitions task?).filter fun t => t.ends = c.ends).count c.transition :=
        (List.count_filter (by simp [hends])).symm
    _ = ((p.declared c.ends).map Condition.transition).count c.transition := by
        rw [filter_transitions_eq, block_of_ne_nil (List.ne_nil_of_mem hmem), ite_self]
    _ = (p.declared c.ends).count c := List.count_map_of_injective _ _ transition_injective _
    _ = p.conditions.count c := List.count_filter (by simp)

/-- The transitions of a pattern of a consistent description are what they should be. -/
theorem expands_transitions {logic : Logic} (hc : logic.Consistent) (hp : p ∈ logic.patterns) :
    p.Expands logic (p.transitions logic.task?) where
  count _ h := count_transition p logic.task? h
  declared pair h := by
    rw [filter_transitions_eq, block_of_ne_nil h, ite_self]
  implied pair h himplied := by
    refine ⟨_, (asks_iff hc hp himplied).2 rfl, ?_⟩
    rw [filter_transitions_eq, if_pos himplied, block_of_nil h]
    rfl
  none pair h himplied := by
    rw [filter_transitions_eq, if_neg himplied, h, List.map_nil]
  order := pairwise_transitions p logic.task?
  rest := by
    refine ⟨_, fun t ht => ?_, transitions_eq ..⟩
    obtain ⟨pair, hpair, ht⟩ := List.mem_flatMap.1 ht
    rw [ends_of_mem_block pair t ht, implies_iff]
    exact List.mem_eraseDups.1 hpair

end Pattern

/-! ## The transitions of a description -/

namespace Logic

/-- The transitions of a description are those of its patterns. -/
structure Collects (logic : Logic) (ts : List Transition) : Prop where
  /-- They are distinct. -/
  nodup : ts.Nodup
  /-- They are those of the patterns. -/
  mem_iff : ∀ t, t ∈ ts ↔ ∃ p ∈ logic.patterns, t ∈ p.transitions logic.task?
  /-- The conditions that patterns declare are among them. -/
  declared : ∀ p ∈ logic.patterns, ∀ c ∈ p.conditions, c.transition ∈ ts
  /-- They stand in the order in which they come first. -/
  order : ts.Pairwise fun t u =>
    (logic.patterns.flatMap (·.transitions logic.task?)).idxOf t <
      (logic.patterns.flatMap (·.transitions logic.task?)).idxOf u

variable {logic : Logic}

theorem mem_transitions {t : Transition} :
    t ∈ logic.transitions ↔ ∃ p ∈ logic.patterns, t ∈ p.transitions logic.task? := by
  rw [transitions, List.mem_eraseDups, List.mem_flatMap]

theorem nodup_transitions (logic : Logic) : logic.transitions.Nodup := nodup_eraseDups _

theorem collects_transitions (logic : Logic) : logic.Collects logic.transitions where
  nodup := logic.nodup_transitions
  mem_iff _ := mem_transitions
  declared p hp c hc := mem_transitions.2 ⟨p, hp, Pattern.mem_transitions_iff.2 (.inl ⟨c, hc, rfl⟩)⟩
  order := pairwise_idxOf_eraseDups _

end Logic

end CasePlan
