import CasePlan.Proofs.Logic.Expansion

/-!
# Which implied transitions are replaced

A condition takes the place of what its own pattern implies for the same pair of tasks.  What
another pattern implies for the pair stays beside it, so that the target waits for both.

* `Logic.Declares`, `Logic.Replaces`: a condition is declared, and a pair has declared conditions
  only.
* `mem_transitions_iff_declares`: the transitions of a description.
* `replaces_iff`: when nothing implied is left; `parse_replaces_iff` is about accepted descriptions,
  and `parse_replaces_overruled` is one where an approval is left beside a declared rejection.
-/

namespace CasePlan

namespace Logic

/-- A pattern declares a condition. -/
def Declares (logic : Logic) (c : Condition) : Prop := ∃ p ∈ logic.patterns, c ∈ p.conditions

/-- All transitions of a pair have conditions that are declared for it. -/
def Replaces (logic : Logic) (pair : Text × Text) : Prop :=
  ∀ t ∈ logic.transitions, t.ends = pair →
    ∃ c, logic.Declares c ∧ c.ends = pair ∧ t.condition = some c

instance (logic : Logic) (c : Condition) : Decidable (logic.Declares c) :=
  inferInstanceAs (Decidable (∃ p ∈ logic.patterns, _))

variable {logic : Logic}

/-- A description has the transitions of all conditions that are declared, and what its patterns
imply for pairs for which they declare nothing themselves. -/
theorem mem_transitions_iff_declares (hc : logic.Consistent) {t : Transition} :
    t ∈ logic.transitions ↔ (∃ c, logic.Declares c ∧ t = c.transition) ∨
      ∃ p ∈ logic.patterns, p.Implies t.ends ∧ p.declared t.ends = [] ∧
        p.Asks logic t.ends t.condition := by
  have hstep : ∀ p : Pattern, t = p.step logic.task? t.ends ↔
      t.condition = (p.step logic.task? t.ends).condition := by
    intro p
    refine ⟨congrArg Transition.condition, fun h => ?_⟩
    obtain ⟨source, target, condition⟩ := t
    exact congrArg (Transition.mk source target) h
  rw [mem_transitions]
  simp only [Pattern.mem_transitions_iff, and_or_left, exists_or]
  refine or_congr ?_ (exists_congr fun p => and_congr_right fun hp => ?_)
  · constructor
    · rintro ⟨p, hp, c, hmem, rfl⟩
      exact ⟨c, ⟨p, hp, hmem⟩, rfl⟩
    · rintro ⟨c, ⟨p, hp, hmem⟩, rfl⟩
      exact ⟨p, hp, c, hmem, rfl⟩
  · refine and_congr_right fun himplies => and_congr_right fun _ => ?_
    rw [hstep, Pattern.asks_iff hc hp himplies]

/-- Nothing implied is left for a pair if every pattern that implies it declares a condition for it,
or asks for one that is declared anyway. -/
theorem replaces_iff (hc : logic.Consistent) {pair : Text × Text} :
    logic.Replaces pair ↔ ∀ p ∈ logic.patterns, p.Implies pair → p.declared pair = [] →
      ∃ c, logic.Declares c ∧ c.ends = pair ∧ p.Asks logic pair (some c) := by
  constructor
  · intro h p hp himplies hnone
    have hmem : p.step logic.task? pair ∈ logic.transitions :=
      mem_transitions.2 ⟨p, hp, Pattern.mem_transitions_iff.2 (.inr ⟨himplies, hnone, rfl⟩)⟩
    obtain ⟨c, hdeclares, hends, hcondition⟩ := h _ hmem rfl
    exact ⟨c, hdeclares, hends, (Pattern.asks_iff hc hp himplies).2 hcondition.symm⟩
  · rintro h t ht rfl
    rcases (mem_transitions_iff_declares hc).1 ht with
      ⟨c, hdeclares, rfl⟩ | ⟨p, hp, himplies, hnone, hasks⟩
    · exact ⟨c, hdeclares, rfl, rfl⟩
    · obtain ⟨c, hdeclares, hends, hc'⟩ := h p hp himplies hnone
      refine ⟨c, hdeclares, hends, ?_⟩
      rw [(Pattern.asks_iff hc hp himplies).1 hasks, ← (Pattern.asks_iff hc hp himplies).1 hc']

end Logic

/-- In an accepted description every declared condition has its transition; what a pattern implies
for a pair is left exactly if it declares nothing for the pair itself, whatever others declare.  So
a pair has declared conditions only, exactly if every pattern that implies it declares a condition
for it, or asks for one that is declared anyway. -/
theorem parse_replaces_iff {raw : Json} {logic : Logic} (h : Logic.parse raw = .ok logic) :
    (∀ t, t ∈ logic.transitions ↔ (∃ c, logic.Declares c ∧ t = c.transition) ∨
      ∃ p ∈ logic.patterns, p.Implies t.ends ∧ p.declared t.ends = [] ∧
        p.Asks logic t.ends t.condition) ∧
    ∀ pair, logic.Replaces pair ↔ ∀ p ∈ logic.patterns, p.Implies pair → p.declared pair = [] →
      ∃ c, logic.Declares c ∧ c.ends = pair ∧ p.Asks logic pair (some c) :=
  ⟨fun _ => Logic.mem_transitions_iff_declares (consistent_of_parse h),
    fun _ => Logic.replaces_iff (consistent_of_parse h)⟩

/-- An approval chain, and a condition for its only step in another pattern. -/
def overruled : Logic where
  tasks := [{ slug := "a", displayName := "A", outcomes := ["approved", "rejected"] },
    { slug := "b", displayName := "B", outcomes := ["done"] }]
  patterns := [⟨.approvalChain, ["a", "b"], []⟩,
    ⟨.parallel, ["a", "b"], [{ source := "a", target := "b", outcome := "rejected" }]⟩]

/-- The value that holds `overruled`. -/
def overruledValue : Json :=
  .obj [("tasks", .arr
      [.obj [("slug", .str "a"), ("displayName", .str "A"),
          ("outcomes", .arr [.str "approved", .str "rejected"])],
        .obj [("slug", .str "b"), ("displayName", .str "B"), ("outcomes", .arr [.str "done"])]]),
    ("patterns", .arr
      [.obj [("type", .str "approval-chain"), ("tasks", .arr [.str "a", .str "b"])],
        .obj [("type", .str "parallel"), ("tasks", .arr [.str "a", .str "b"]),
          ("conditions", .arr [.obj [("sourceTask", .str "a"), ("targetTask", .str "b"),
            ("outcome", .str "rejected")]])]])]

/-- A condition is declared for the step of `overruled`, and yet the approval is left. -/
theorem parse_replaces_overruled :
    Logic.parse overruledValue = .ok overruled ∧
      overruled.Declares { source := "a", target := "b", outcome := "rejected" } ∧
      ¬overruled.Replaces ("a", "b") := by
  have hparse : Logic.parse overruledValue = .ok overruled := by rfl
  refine ⟨hparse, by decide +kernel, fun hreplaces => ?_⟩
  -- The chain declares nothing, so the approval it implies is among the transitions.
  have happroval : ⟨"a", "b", some { source := "a", target := "b", outcome := "approved" }⟩ ∈
      overruled.transitions :=
    ((parse_replaces_iff hparse).1 _).2 (.inr ⟨⟨.approvalChain, ["a", "b"], []⟩,
      List.mem_cons_self, by decide +kernel, rfl, rfl, _, List.mem_cons_self, rfl, "approved", rfl,
      rfl⟩)
  obtain ⟨c, hdeclares, -, hcondition⟩ := hreplaces _ happroval rfl
  obtain rfl := Option.some.inj hcondition
  revert hdeclares
  decide +kernel

end CasePlan
