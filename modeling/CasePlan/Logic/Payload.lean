import CasePlan.Json.Writer
import CasePlan.Logic.Basic

/-!
# Business logic as data

`Logic.toJson` writes a description in the form it is accepted in.  Texts that are absent are left
out; conditions, patterns and stages are always there.
-/

namespace CasePlan

/-- A member that is left out when there is no value. -/
def Json.optionalMember (name : Text) (value : Option Json) : List (Text × Json) :=
  match value with
  | some v => [(name, v)]
  | none => []

/-- A task as data. -/
def Task.toJson (t : Task) : Json :=
  let required : List (Text × Json) :=
    [("slug", .str t.slug), ("displayName", .str t.displayName),
      ("outcomes", .arr (t.outcomes.map .str))]
  .obj (required ++
    Json.optionalMember "assignee" (t.assignee.map .str) ++
    Json.optionalMember "candidateGroups" (t.candidateGroups.map .str) ++
    Json.optionalMember "dueDate" (t.dueDate.map .str) ++
    Json.optionalMember "formKey" (t.formKey.map .str) ++
    Json.optionalMember "repetitionLimit" (t.repetitionLimit.map .int))

/-- A condition as data. -/
def Condition.toJson (c : Condition) : Json :=
  .obj [("sourceTask", .str c.source), ("targetTask", .str c.target), ("outcome", .str c.outcome),
    ("operator", .str c.comparison.word), ("logicalOperator", .str c.join.word)]

/-- A pattern as data. -/
def Pattern.toJson (p : Pattern) : Json :=
  .obj [("tasks", .arr (p.members.map .str)), ("conditions", .arr (p.conditions.map (·.toJson))),
    ("type", .str p.kind.word)]

/-- A stage as data. -/
def Stage.toJson (s : Stage) : Json :=
  .obj [("slug", .str s.slug), ("displayName", .str s.displayName),
    ("tasks", .arr (s.members.map .str))]

/-- A description as data. -/
def Logic.toJson (logic : Logic) : Json :=
  .obj [("tasks", .arr (logic.tasks.map (·.toJson))),
    ("patterns", .arr (logic.patterns.map (·.toJson))),
    ("stages", .arr (logic.stages.map (·.toJson)))]

end CasePlan
