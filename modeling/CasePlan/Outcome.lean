import CasePlan.Expression
import CasePlan.Json.Reader
import CasePlan.Json.Writer

/-!
# Outcome rules

When a task ends, the engine sets a status by a list of rules, one for each outcome of the task.
The list is handed over as JSON.

* `Outcome.status` is the status that an outcome leads to, `Outcome.rules` the list for some
  outcomes, `Outcome.write` its text.
* `Outcome.readRules?` reads such a text back; whatever is an array counts as a list of rules.
-/

namespace CasePlan.Outcome

/-- The outcomes with a status of their own, in lower case. -/
def statusTable : List (Text × Text) :=
  [("completed", "nextTask"), ("approved", "nextApproval"), ("rejected", "rejected"),
    ("pending", "pending"), ("review", "underReview")]

/-- The status that an outcome leads to; case does not matter. -/
def status (outcome : Text) : Text := (Table.get? outcome.lower statusTable).getD "pending"

/-- The rule for an outcome. -/
def rule (outcome : Text) : Json :=
  .obj
    [("conditions",
        .arr [.obj [("key", .str Expression.outcomeVariable), ("value", .str outcome),
          ("op", .str "eq")]]),
      ("output",
        .arr [.obj [("key", .str Expression.statusVariable), ("value", .str (status outcome))]])]

/-- The rules for some outcomes. -/
def rules (outcomes : List Text) : Json := .arr (outcomes.map rule)

/-- The text of the rules for some outcomes. -/
def write (outcomes : List Text) : Text := (rules outcomes).write

/-- The rules in a text, if it is JSON and an array. -/
def readRules? (t : Text) : Option (List Json) :=
  match Json.read t with
  | .ok (.arr items) => some items
  | _ => none

end CasePlan.Outcome
