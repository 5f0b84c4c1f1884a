import CasePlan.Proofs.Document.Payload
import CasePlan.Proofs.Logic.Soundness

/-!
# The rules of accepted tasks

The rules for the outcomes of an accepted task can be put into a CDATA section as they are written,
and whoever reads them there finds one rule for each outcome, in order.

* `IsRuleFor`: a rule for an outcome, by what is found in it; `isRuleFor_rule`: what is written for
  an outcome is one.
* `rules_of_accepted`: the text of the rules, and what is read from it.
-/

namespace CasePlan

namespace Outcome

/-- A rule has one condition, which compares with an outcome, and one output, which sets the status
that the outcome leads to. -/
structure IsRuleFor (outcome : Text) (rule : Json) : Prop where
  /-- The condition compares with the outcome. -/
  condition : ∃ condition, rule.get? "conditions" = some (.arr [condition]) ∧
    condition.get? "key" = some (.str Expression.outcomeVariable) ∧
    condition.get? "value" = some (.str outcome) ∧ condition.get? "op" = some (.str "eq")
  /-- The output is the status. -/
  output : ∃ output, rule.get? "output" = some (.arr [output]) ∧
    output.get? "key" = some (.str Expression.statusVariable) ∧
    output.get? "value" = some (.str (status outcome))

theorem isRuleFor_rule (outcome : Text) : IsRuleFor outcome (rule outcome) :=
  ⟨⟨_, rfl, rfl, rfl, rfl⟩, ⟨_, rfl, rfl, rfl⟩⟩

/-- What is written for outcomes without surrogates is read as one rule for each, in order. -/
theorem exists_readRules?_write {outcomes : List Text} (h : AreScalar outcomes) :
    ∃ rules, readRules? (write outcomes) = some rules ∧
      List.Forall₂ IsRuleFor outcomes rules := by
  refine ⟨outcomes.map rule, ?_, ?_⟩
  · rw [← strip_write outcomes]
    exact readRules?_write h
  · exact forall₂_map_of_forall_mem fun o _ => isRuleFor_rule o

end Outcome

namespace Logic

open Outcome (IsRuleFor readRules?)

variable {logic : Logic}

/-- The rules of every accepted task are written in printable ASCII, without blanks at the ends and
without the end mark of a section, and are read as one rule for each outcome, in order. -/
theorem rules_of_accepted
    (h : (∃ raw, parse raw = .ok logic) ∨ ∃ bytes, parseBytes bytes = .ok logic) {t : Task}
    (ht : t ∈ logic.tasks) :
    (Outcome.write t.outcomes).all Json.isPrintable = true ∧
      ¬ Validation.sectionEnd <:+: Outcome.write t.outcomes ∧
      (Outcome.write t.outcomes).strip = Outcome.write t.outcomes ∧
      ∃ rules, readRules? (Outcome.write t.outcomes) = some rules ∧
        List.Forall₂ IsRuleFor t.outcomes rules := by
  have hvalid := valid_of_accepted h
  have hdeclared : ∀ o ∈ t.outcomes, o ∈ logic.outcomes := fun o ho =>
    List.mem_append_left _ (List.mem_append_left _ (List.mem_flatMap.2 ⟨t, ht, ho⟩))
  have htexts : ∀ o ∈ t.outcomes, o ∈ logic.texts := fun o ho =>
    List.mem_append_left _ (List.mem_append_left _ (List.mem_flatMap.2 ⟨t, ht, by
      simp [Task.texts, ho]⟩))
  have hscalar : Outcome.AreScalar t.outcomes := fun o ho c hc =>
    Utf8.isSurrogate_of_isXmlChar (hvalid.isXmlChar o (htexts o ho) c hc)
  exact ⟨Outcome.all_write hscalar,
    Outcome.not_isInfix_write fun o ho => hvalid.noSectionEnd o (hdeclared o ho),
    Outcome.strip_write t.outcomes, Outcome.exists_readRules?_write hscalar⟩

/-- A task with outcomes that are not written as they are: with a quotation mark and a backslash,
and with a character that takes two escapes before a carriage return. -/
def signing : Task where
  slug := "sign"
  displayName := "Sign"
  outcomes := ["Approved", "\"no\" \\ ]]", "𝄞\r"]

/-- The value that holds a description with the one task. -/
def signingValue : Json :=
  .obj [("tasks", .arr [.obj [("slug", .str "sign"), ("displayName", .str "Sign"),
    ("outcomes", .arr [.str "Approved", .str "\"no\" \\ ]]", .str "𝄞\r"])]])]

/-- Its outcomes are read back, each with its status. -/
theorem rules_of_accepted_signing :
    parse signingValue = .ok { tasks := [signing] } ∧
      ¬ Validation.sectionEnd <:+: Outcome.write signing.outcomes ∧
      Outcome.status "Approved" = "nextApproval" ∧
      ∃ rules, readRules? (Outcome.write signing.outcomes) = some rules ∧
        List.Forall₂ IsRuleFor signing.outcomes rules := by
  have hparse : parse signingValue = .ok { tasks := [signing] } := by rfl
  have hstatus : Outcome.status "Approved" = "nextApproval" := by decide +kernel
  obtain ⟨-, hsection, -, hrules⟩ :=
    rules_of_accepted (.inl ⟨signingValue, hparse⟩) (List.mem_singleton.2 rfl)
  exact ⟨hparse, hsection, hstatus, hrules⟩

end Logic

end CasePlan
