import CasePlan.Template.Basic

/-!
# The templates that come with the library

Three descriptions to start from: an approval chain, a review by several people at once, and a
review that sends a document back to its author.
-/

namespace CasePlan.Library

/-- A task of a shipped template. -/
def task (slug name : Text) (outcomes : List Text) (more : List (Text × Json)) : Json :=
  let required : List (Text × Json) :=
    [("slug", .str slug), ("displayName", .str name), ("outcomes", .arr (outcomes.map .str))]
  .obj (required ++ more)

/-- Done by whoever started the case. -/
def byInitiator : List (Text × Json) := [("assignee", .str "$\x7binitiator\x7d")]

/-- Done by the members of a group. -/
def byGroup (name : Text) : List (Text × Json) := [("candidateGroups", .str name)]

/-- Done a limited number of times. -/
def atMost (limit : Int) : List (Text × Json) := [("repetitionLimit", .int limit)]

/-- A condition of a shipped template. -/
def after (source target outcome : Text) : Json :=
  .obj [("sourceTask", .str source), ("targetTask", .str target), ("outcome", .str outcome)]

/-- A pattern of a shipped template. -/
def pattern (kind : PatternKind) (members : List Text) (conditions : List Json) : Json :=
  .obj [("type", .str kind.word), ("tasks", .arr (members.map .str)),
    ("conditions", .arr conditions)]

/-- Several reviewers at once. -/
def parallelReview : Template where
  id := "parallelReview"
  name := "Parallel Review Process"
  description := "Multiple reviewers work simultaneously on different aspects"
  body :=
    [("tasks", .arr
        [task "initiate" "Initiate Review" ["started"] byInitiator,
          task "technicalReview" "Technical Review" ["approved", "rejected"]
            (byGroup "technicalTeam"),
          task "legalReview" "Legal Review" ["approved", "rejected"] (byGroup "legalTeam"),
          task "finalApproval" "Final Approval" ["approved", "rejected"] (byGroup "managers")]),
      ("patterns", .arr
        [pattern .parallel ["technicalReview", "legalReview"]
            [after "initiate" "technicalReview" "started",
              after "initiate" "legalReview" "started"],
          pattern .sequential ["finalApproval"]
            [after "technicalReview" "finalApproval" "approved",
              after "legalReview" "finalApproval" "approved"]])]

/-- A review after which the author may have to start again. -/
def retryPattern : Template where
  id := "retryPattern"
  name := "Review and Retry Process"
  description := "Tasks can be redone based on review feedback"
  body :=
    [("tasks", .arr
        [task "createDocument" "Create Document" ["completed"]
            (byInitiator ++ atMost 5),
          task "review" "Review Document" ["approved", "needsChanges"] (byGroup "reviewers"),
          task "finalize" "Finalize" ["finalized"] byInitiator]),
      ("patterns", .arr
        [pattern .retry ["createDocument", "review"]
          [after "createDocument" "review" "completed",
            after "review" "createDocument" "needsChanges",
            after "review" "finalize" "approved"]])]

/-- Approvals one after another. -/
def sequentialApproval : Template where
  id := "sequentialApproval"
  name := "Sequential Approval Chain"
  description := "Tasks execute in sequence, each requiring approval to proceed"
  body :=
    [("tasks", .arr
        [task "submit" "Submit Request" ["submitted", "draft"] byInitiator,
          task "l1Approval" "L1 Approval" ["approved", "rejected"] (byGroup "level1Approvers"),
          task "l2Approval" "L2 Approval" ["approved", "rejected"] (byGroup "level2Approvers"),
          task "complete" "Process Complete" ["completed"] byInitiator]),
      ("patterns", .arr
        [pattern .approvalChain ["submit", "l1Approval", "l2Approval", "complete"]
          [after "submit" "l1Approval" "submitted",
            after "l1Approval" "l2Approval" "approved",
            after "l2Approval" "complete" "approved"]])]

/-- The shipped library. -/
def shipped : Library := ofTemplates [parallelReview, retryPattern, sequentialApproval]

end CasePlan.Library
