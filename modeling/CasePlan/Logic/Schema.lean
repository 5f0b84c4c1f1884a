import CasePlan.Logic.Basic
import CasePlan.Schema.Basic

/-!
# Business logic from checked data

`Logic.ofJson` reads a description by its shape alone: it neither asks whether the tasks that
patterns and stages name exist nor whether slugs are used twice.  Members go by the names of the
data format or by their lower-case names with low lines.
-/

namespace CasePlan

open Schema

/-- Reads a record of a given name. -/
def Schema.record {α : Type} (name : Text) (read : List (Text × Json) → Checked α) :
    Json → Checked α
  | .obj members => read members
  | _ => .fault (.record name)

/-- A task by its shape. -/
def Task.ofJson : Json → Checked Task :=
  record "TaskDefinition" fun members =>
    Task.mk
      <$> field ["slug"] none text members
      <*> field ["displayName", "display_name"] none text members
      <*> field ["outcomes"] none (someItems text) members
      <*> field ["assignee"] (some none) (optional text) members
      <*> field ["candidateGroups", "candidate_groups"] (some none) (optional text) members
      <*> field ["dueDate", "due_date"] (some none) (optional text) members
      <*> field ["formKey", "form_key"] (some none) (optional text) members
      <*> field ["repetitionLimit", "repetition_limit"] (some none) (optional whole) members

/-- A condition by its shape. -/
def Condition.ofJson : Json → Checked Condition :=
  record "ConditionDefinition" fun members =>
    Condition.mk
      <$> field ["sourceTask", "source_task"] none text members
      <*> field ["targetTask", "target_task"] none text members
      <*> field ["outcome"] none text members
      <*> field ["operator"] (some .equals)
        (choice (Comparison.all.map fun c => (c.word, c))) members
      <*> field ["logicalOperator", "logical_operator"] (some .both)
        (choice (Join.all.map fun j => (j.word, j))) members

/-- A pattern of a known kind by its shape. -/
def Pattern.ofMembers (kind : PatternKind) (members : List (Text × Json)) : Checked Pattern :=
  Pattern.mk kind
    <$> field ["tasks"] none (someItems text) members
    <*> field ["conditions"] (some []) (items Condition.ofJson) members

/-- A pattern by its shape; its member `type` tells the kind. -/
def Pattern.ofJson : Json → Checked Pattern
  | .obj members =>
    match Table.get? ("type" : Text) members with
    | none => .fault .noTag
    | some tag =>
      match tag.text?.bind PatternKind.ofWord? with
      | some kind => (Pattern.ofMembers kind members).inside kind.word
      | none => .fault (.tag tag.shown (PatternKind.all.map PatternKind.word))
  | _ => .fault .members

/-- A stage by its shape. -/
def Stage.ofJson : Json → Checked Stage :=
  record "StageDefinition" fun members =>
    Stage.mk
      <$> field ["slug"] none text members
      <*> field ["displayName", "display_name"] none text members
      <*> field ["tasks"] none (someItems text) members

/-- A description by its shape. -/
def Logic.ofJson : Json → Checked Logic :=
  record "BusinessLogic" fun members =>
    Logic.mk
      <$> field ["tasks"] none (someItems Task.ofJson) members
      <*> field ["patterns"] (some []) (items Pattern.ofJson) members
      <*> field ["stages"] (some []) (items Stage.ofJson) members

end CasePlan
