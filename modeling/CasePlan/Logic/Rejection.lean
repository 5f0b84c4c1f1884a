import CasePlan.Json.Reader
import CasePlan.Logic.Basic
import CasePlan.Schema.Basic

/-!
# Why a description is rejected

`Rejection` lists the reasons for which a description, a case name or an application is not
compiled.  `Rejection.message` words them; `Rejection.index?` and `Rejection.field?` point at the
entry and the member at fault.
-/

namespace CasePlan

/-- The lists of a description. -/
inductive Section where
  /-- The tasks. -/
  | tasks
  /-- The stages. -/
  | stages
  /-- The patterns. -/
  | patterns
  deriving DecidableEq, Repr

/-- The word that an entry of a list is called by. -/
def Section.entryWord : Section → Text
  | .tasks => "Task"
  | .stages => "Stage"
  | .patterns => "Pattern"

/-- The member that holds a list. -/
def Section.field : Section → Text
  | .tasks => "tasks"
  | .stages => "stages"
  | .patterns => "patterns"

/-- What is wrong with one entry of a list. -/
inductive EntryFault where
  /-- It is no object. -/
  | notObject
  /-- A member is not a text with content. -/
  | noText (field : Text)
  /-- A member holds characters that XML cannot carry. -/
  | notXml (field : Text)
  /-- A member holds the end mark of a CDATA section. -/
  | sectionEnd (field : Text)
  /-- The slug of a task is used by an earlier task. -/
  | duplicateSlug (slug : Text)
  /-- The slug of a stage is used by a task or an earlier stage. -/
  | takenSlug (slug : Text)
  /-- A member is not an array with items. -/
  | emptyArray (field : Text)
  /-- An outcome is not a text with content. -/
  | blankOutcome
  /-- A member is not a text. -/
  | notText (field : Text)
  /-- The repetition limit is not a whole number above zero. -/
  | badLimit
  /-- A member of a stage or pattern is no task. -/
  | unknownTask (shown : Text)
  /-- A member of a stage belongs to a stage already. -/
  | claimedTask (slug stage : Text)
  /-- The type of a pattern is none of the known ones. -/
  | badKind
  /-- The conditions are no array. -/
  | conditionsNotArray
  deriving DecidableEq, Repr

/-- What is wrong with a condition of a pattern. -/
inductive ConditionFault where
  /-- It is no object. -/
  | notObject
  /-- Source, target or outcome is not a text with content. -/
  | incomplete
  /-- The outcome holds characters that XML cannot carry. -/
  | notXml
  /-- The outcome holds the end mark of a CDATA section. -/
  | sectionEnd
  /-- Source or target, as the field tells, is no task. -/
  | unknownTask (field slug : Text)
  /-- The comparison is none of the known ones. -/
  | badComparison
  /-- The join is none of the known ones. -/
  | badJoin
  deriving DecidableEq, Repr

/-- Why an input is not compiled. -/
inductive Rejection where
  /-- The description is text, but not JSON. -/
  | notJson (fault : Json.Fault)
  /-- The description is no object. -/
  | notObject
  /-- There are no tasks. -/
  | noTasks
  /-- Stages or patterns are no array. -/
  | notArray (list : Section)
  /-- An entry is at fault. -/
  | entry (list : Section) (index : Nat) (fault : EntryFault)
  /-- A condition of a pattern is at fault. -/
  | condition (pattern index : Nat) (fault : ConditionFault)
  /-- A member has another shape. -/
  | shape (issue : Schema.Issue)
  /-- The name of the case cannot stand in identifiers. -/
  | caseName
  /-- The application has no identifier. -/
  | noApplication
  /-- A member of the application holds characters that XML cannot carry. -/
  | applicationText (field : Text)
  /-- Two elements would have the same identifier. -/
  | sharedId (id owner earlier : Text)
  deriving DecidableEq, Repr

/-- Words joined by a comma and a blank. -/
def listed (words : List Text) : Text := Text.join ", " words

/-- The wording of an entry's fault. -/
def EntryFault.message : EntryFault → Text
  | .notObject => "must be an object"
  | .noText field => field ++ " is required and must be a string"
  | .notXml field => field ++ " contains characters not allowed in XML"
  | .sectionEnd field => field ++ " must not contain ']]>'"
  | .duplicateSlug slug => "duplicate slug '" ++ slug ++ "'"
  | .takenSlug slug => "slug '" ++ slug ++ "' is already used"
  | .emptyArray field => field ++ " must be a non-empty array"
  | .blankOutcome => "outcomes must be non-empty strings"
  | .notText field => field ++ " must be a string"
  | .badLimit => "repetitionLimit must be a positive integer"
  | .unknownTask shown => "referenced task '" ++ shown ++ "' does not exist"
  | .claimedTask slug stage => "task '" ++ slug ++ "' already belongs to stage '" ++ stage ++ "'"
  | .badKind => "type must be one of: " ++ listed (PatternKind.all.map PatternKind.word)
  | .conditionsNotArray => "conditions must be an array"

/-- The member that an entry's fault lies in. -/
def EntryFault.field? : EntryFault → Option Text
  | .notObject => none
  | .noText field | .notXml field | .sectionEnd field | .emptyArray field | .notText field =>
    some field
  | .duplicateSlug _ | .takenSlug _ => some "slug"
  | .blankOutcome => some "outcomes"
  | .badLimit => some "repetitionLimit"
  | .unknownTask _ | .claimedTask _ _ => some "tasks"
  | .badKind => some "type"
  | .conditionsNotArray => some "conditions"

/-- The wording of a condition's fault. -/
def ConditionFault.message : ConditionFault → Text
  | .notObject => "must be an object"
  | .incomplete => "sourceTask, targetTask, and outcome are required"
  | .notXml => "outcome contains characters not allowed in XML"
  | .sectionEnd => "outcome must not contain ']]>'"
  | .unknownTask field slug => field ++ " '" ++ slug ++ "' does not exist"
  | .badComparison => "operator must be one of: " ++ listed (Comparison.all.map Comparison.word)
  | .badJoin => "logicalOperator must be one of: " ++ listed (Join.all.map Join.word)

/-- The member that a condition's fault lies in. -/
def ConditionFault.field : ConditionFault → Text
  | .notObject | .incomplete => "conditions"
  | .notXml | .sectionEnd => "outcome"
  | .unknownTask field _ => field
  | .badComparison => "operator"
  | .badJoin => "logicalOperator"

/-- How messages call an entry: by its list and its number, counted from one. -/
def entryLabel (list : Section) (index : Nat) : Text :=
  list.entryWord ++ " " ++ Text.ofNat (index + 1)

/-- How messages call a condition. -/
def conditionLabel (pattern index : Nat) : Text :=
  entryLabel .patterns pattern ++ ", condition " ++ Text.ofNat (index + 1)

namespace Rejection

/-- The wording of a rejection. -/
def message : Rejection → Text
  | notJson fault => "Invalid JSON format for business logic: " ++ fault.kind.message
  | notObject => "Business logic must be an object"
  | noTasks => "Business logic must include at least one task"
  | notArray list => list.field ++ " must be an array"
  | entry list index fault => entryLabel list index ++ ": " ++ fault.message
  | condition pattern index fault => conditionLabel pattern index ++ ": " ++ fault.message
  | shape issue => issue.location ++ ": " ++ issue.cause.message
  | caseName =>
    "Case name must start with a letter or underscore and contain only letters, digits, '_' or '-'"
  | noApplication => "Application identifier is required"
  | applicationText field => "Application " ++ field ++ " contains characters not allowed in XML"
  | sharedId id owner earlier =>
    "Element id '" ++ id ++ "' of " ++ owner ++ " collides with " ++ earlier

/-- The number of the entry at fault. -/
def index? : Rejection → Option Nat
  | entry _ index _ => some index
  | condition pattern _ _ => some pattern
  | _ => none

/-- The member at fault. -/
def field? : Rejection → Option Text
  | noTasks => some "tasks"
  | notArray list => some list.field
  | entry _ _ fault => fault.field?
  | condition _ _ fault => some fault.field
  | shape issue => some issue.location
  | caseName => some "caseName"
  | noApplication => some "identifier"
  | applicationText field => some field
  | sharedId _ _ _ => some "slug"
  | _ => none

end Rejection

end CasePlan
