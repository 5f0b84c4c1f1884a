import CasePlan.Logic.Basic

/-!
# Expressions of the case engine

The texts in which conditions and limits are handed to the engine: comparisons of the outcome
variable with a quoted outcome, joined from left to right between `$\{` and a brace.

* `Expression.literal` quotes a text, `Expression.condition` joins conditions,
  `Expression.repetition` bounds the number of repetitions.
-/

namespace CasePlan.Expression

/-- The variable that holds the outcome of the task that ended. -/
def outcomeVariable : Text := "_outcome"

/-- The variable that holds the status of the case. -/
def statusVariable : Text := "_status"

/-- The variable that counts repetitions. -/
def repetitionCounter : Text := "repetitionCounter"

/-- One code point inside a quoted text. -/
def literalCode (c : CodePoint) : Text :=
  if c = '\\' then "\\\\" else if c = '"' then "\\\"" else [c]

/-- A text between quotation marks, with a backslash before quotation marks and backslashes. -/
def literal (t : Text) : Text := .quotationMark :: t.flatMap literalCode ++ [.quotationMark]

/-- The comparison that a condition makes. -/
def predicate (c : Condition) : Text :=
  "vars:" ++ c.comparison.word ++ "(" ++ outcomeVariable ++ "," ++ literal c.outcome ++ ")"

/-- The sign of a join. -/
def joinSign : Join → Text
  | .both => "&&"
  | .either => "||"

/-- An expression in its braces. -/
def enclosed (t : Text) : Text := "$\x7b" ++ t ++ "\x7d"

/-- The comparisons of conditions, each after the first with the sign of its join; nothing for no
conditions. -/
def condition : List Condition → Text
  | [] => []
  | c :: rest =>
    enclosed (predicate c ++ rest.flatMap fun d => joinSign d.join ++ predicate d)

/-- The bound on the number of repetitions. -/
def repetition (limit : Int) : Text :=
  enclosed (repetitionCounter ++ " < " ++ Text.ofInt limit)

end CasePlan.Expression
