import CasePlan.Inspection.Report

/-!
# Reports as data

A report and the tasks that it lists, written as data.  Texts that are absent are `null`.
-/

namespace CasePlan

/-- A found task as data. -/
def FoundTask.toJson (t : FoundTask) : Json :=
  .obj [("id", .str t.id), ("slug", .str t.slug), ("name", .str t.name),
    ("assignee", .ofText? t.assignee), ("candidate_groups", .ofText? t.candidateGroups),
    ("due_date", .ofText? t.dueDate), ("form_key", .ofText? t.formKey),
    ("outcomes", .arr t.outcomes), ("stage", .ofText? t.stage),
    ("stage_name", .ofText? t.stageName)]

/-- A report as data; warnings are given by their texts. -/
def Report.toJson (r : Report) : Json :=
  .obj [("isValid", .bool r.isValid), ("errors", .arr (r.errors.map .str)),
    ("warnings", .arr (r.warnings.map (.str ·.text))),
    ("suggestions", .arr (r.suggestions.map .str)), ("caseName", .ofText? r.caseName),
    ("applicationId", .ofText? r.applicationId), ("tasks", .arr (r.tasks.map (·.toJson)))]

end CasePlan
