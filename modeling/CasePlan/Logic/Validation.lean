import CasePlan.Logic.Rejection
import CasePlan.Text.Utf8

/-!
# Accepting business logic

`Logic.parse` reads a description given as data or as JSON text and accepts it only if it is
consistent: slugs are used once, stages and patterns name tasks that exist, no task is in two
stages, and every text can stand in an XML document.  It stops at the first fault, tasks before
stages before patterns, and each list from its first entry to its last.

A member of a stage or pattern that is an array or an object cannot be looked up at all, which is a
fault of another kind than a rejection (`ParseError.unhashable`).

`Logic.undeclaredOutcomes` lists the conditions on an outcome that their source does not declare;
they are accepted.
-/

namespace CasePlan

/-- Why no description comes out of an input. -/
inductive ParseError where
  /-- The description is rejected. -/
  | rejected (reason : Rejection)
  /-- A value that has no place among slugs is looked up there; the word tells its type. -/
  | unhashable (word : Text)
  /-- The bytes are not UTF-8. -/
  | notUtf8 (fault : Utf8.DecodeError)
  deriving DecidableEq, Repr

/-- The wording of a lookup that fails by the type of the value. -/
def unhashableMessage (word : Text) : Text := "unhashable type: '" ++ word ++ "'"

/-- The wording of an error. -/
def ParseError.message : ParseError → Text
  | .rejected reason => reason.message
  | .unhashable word => unhashableMessage word
  | .notUtf8 fault => fault.message

namespace Validation

/-- The end mark of a CDATA section. -/
def sectionEnd : Text := "]]>"

/-- The text, if the value is one and not all of it is blank. -/
def label? : Json → Option Text
  | .str t => if t.hasContent then some t else none
  | _ => none

/-- Refuses a text that XML cannot carry. -/
def checkXml (field t : Text) : Except EntryFault Unit :=
  if t.isXmlText then .ok () else .error (.notXml field)

/-! ## Tasks -/

/-- A member that must be a text with content which XML can carry. -/
def acceptLabel (field : Text) (value : Json) : Except EntryFault Text :=
  match label? value with
  | none => .error (.noText field)
  | some t => (checkXml field t).map fun _ => t

/-- Outcomes that are all texts with content. -/
def acceptLabels : List Json → Except EntryFault (List Text)
  | [] => .ok []
  | x :: rest =>
    match label? x with
    | none => .error .blankOutcome
    | some t => (acceptLabels rest).map (t :: ·)

/-- Refuses outcomes that could not stand in a CDATA section. -/
def checkOutcomes : List Text → Except EntryFault Unit
  | [] => .ok ()
  | t :: rest =>
    if !t.isXmlText then .error (.notXml "outcomes")
    else if Text.contains sectionEnd t then .error (.sectionEnd "outcomes")
    else checkOutcomes rest

/-- The outcomes of a task. -/
def acceptOutcomes (value : Json) : Except EntryFault (List Text) :=
  match value with
  | .arr (x :: rest) => do
    let outcomes ← acceptLabels (x :: rest)
    checkOutcomes outcomes
    pure outcomes
  | _ => .error (.emptyArray "outcomes")

/-- A member that may be absent or a text. -/
def acceptOptional (field : Text) (value : Json) : Except EntryFault (Option Text) :=
  match value with
  | .null => .ok none
  | .str t => (checkXml field t).map fun _ => some t
  | _ => .error (.notText field)

/-- The repetition limit. -/
def acceptLimit (value : Json) : Except EntryFault (Option Int) :=
  match value with
  | .null => .ok none
  | .int n => if n < 1 then .error .badLimit else .ok (some n)
  | _ => .error .badLimit

/-- A task, given the slugs of the tasks before it. -/
def acceptTask (seen : List Text) (value : Json) : Except EntryFault Task :=
  match value with
  | .obj _ => do
    let slug ← acceptLabel "slug" (value.getD "slug")
    if slug ∈ seen then .error (.duplicateSlug slug)
    let displayName ← acceptLabel "displayName" (value.getD "displayName")
    let outcomes ← acceptOutcomes (value.getD "outcomes")
    let assignee ← acceptOptional "assignee" (value.getD "assignee")
    let candidateGroups ← acceptOptional "candidateGroups" (value.getD "candidateGroups")
    let dueDate ← acceptOptional "dueDate" (value.getD "dueDate")
    let formKey ← acceptOptional "formKey" (value.getD "formKey")
    let repetitionLimit ← acceptLimit (value.getD "repetitionLimit")
    pure { slug, displayName, outcomes, assignee, candidateGroups, dueDate, formKey,
           repetitionLimit }
  | _ => .error .notObject

/-- Tasks from a number on, given the slugs of those before. -/
def acceptTasksFrom (index : Nat) (seen : List Text) : List Json → Except Rejection (List Task)
  | [] => .ok []
  | x :: rest =>
    match acceptTask seen x with
    | .error fault => .error (.entry .tasks index fault)
    | .ok task => (acceptTasksFrom (index + 1) (task.slug :: seen) rest).map (task :: ·)

/-- The tasks of a description. -/
def acceptTasks (value : Json) : Except Rejection (List Task) :=
  match value with
  | .arr (x :: rest) => acceptTasksFrom 0 [] (x :: rest)
  | _ => .error .noTasks

/-! ## Stages -/

/-- Looks a member up among the slugs of the tasks. -/
def acceptMember (slugs : List Text) (value : Json) :
    Except ParseError (Except EntryFault Text) :=
  match value with
  | .arr _ | .obj _ => .error (.unhashable value.typeWord)
  | .str t => .ok (if t ∈ slugs then .ok t else .error (.unknownTask t))
  | _ => .ok (.error (.unknownTask value.shown))

/-- A stage before its name is known to be a text. -/
structure StageDraft where
  /-- Its slug. -/
  slug : Text
  /-- Its name, if that is a text. -/
  name? : Option Text
  /-- Its members. -/
  members : List Text

/-- Puts a fault at an entry. -/
def atEntry {α : Type} (list : Section) (index : Nat) :
    Except EntryFault α → Except ParseError α
  | .ok a => .ok a
  | .error fault => .error (.rejected (.entry list index fault))

/-- The members of a stage; `claimed` are the members of stages so far, with their stages. -/
def claimMembers (slugs : List Text) (index : Nat) (stage : Text) (claimed : List (Text × Text)) :
    List Json → Except ParseError (List Text × List (Text × Text))
  | [] => .ok ([], claimed)
  | x :: rest => do
    let slug ← atEntry .stages index (← acceptMember slugs x)
    match Table.get? slug claimed with
    | some owner => .error (.rejected (.entry .stages index (.claimedTask slug owner)))
    | none =>
      let (members, claimed) ←
        claimMembers slugs index stage (Table.insert slug stage claimed) rest
      pure (slug :: members, claimed)

/-- The name of a stage: its slug unless it declares something else. -/
def acceptStageName (slug : Text) (value : Json) : Except EntryFault (Option Text) :=
  if value.isTruthy then
    match value with
    | .str t => (checkXml "displayName" t).map fun _ => some t
    | _ => .ok none
  else (checkXml "displayName" slug).map fun _ => some slug

/-- What is known of the stages so far. -/
structure StagesSoFar where
  /-- Their slugs. -/
  slugs : List Text := []
  /-- Their members, with their stages. -/
  claimed : List (Text × Text) := []

/-- A stage, given the slugs of the tasks and the stages before it. -/
def acceptStage (slugs : List Text) (index : Nat) (before : StagesSoFar) (value : Json) :
    Except ParseError (StageDraft × StagesSoFar) :=
  match value with
  | .obj _ => do
    let slug ← atEntry .stages index (acceptLabel "slug" (value.getD "slug"))
    if slug ∈ slugs ∨ slug ∈ before.slugs then
      .error (.rejected (.entry .stages index (.takenSlug slug)))
    match value.getD "tasks" with
    | .arr (x :: rest) =>
      let (members, claimed) ← claimMembers slugs index slug before.claimed (x :: rest)
      let name? ← atEntry .stages index (acceptStageName slug (value.getD "displayName"))
      pure (⟨slug, name?, members⟩, ⟨slug :: before.slugs, claimed⟩)
    | _ => .error (.rejected (.entry .stages index (.emptyArray "tasks")))
  | _ => .error (.rejected (.entry .stages index .notObject))

/-- Stages from a number on, given what is known of those before. -/
def acceptStagesFrom (slugs : List Text) (index : Nat) (before : StagesSoFar) :
    List Json → Except ParseError (List StageDraft)
  | [] => .ok []
  | x :: rest => do
    let (stage, before) ← acceptStage slugs index before x
    let stages ← acceptStagesFrom slugs (index + 1) before rest
    pure (stage :: stages)

/-- The stages of a description, given the slugs of its tasks. -/
def acceptStages (slugs : List Text) (value : Json) : Except ParseError (List StageDraft) :=
  match value with
  | .null => .ok []
  | .arr items => acceptStagesFrom slugs 0 {} items
  | _ => .error (.rejected (.notArray .stages))

/-- The issue of a stage whose name is no text. -/
def nameIssue (index : Nat) : Schema.Issue :=
  ⟨["stages", Text.ofNat index, "displayName"], .text⟩

/-- Stages from a number on whose names are texts. -/
def finishStages (index : Nat) : List StageDraft → Except Rejection (List Stage)
  | [] => .ok []
  | draft :: rest =>
    match draft.name? with
    | none => .error (.shape (nameIssue index))
    | some name =>
      (finishStages (index + 1) rest).map (⟨draft.slug, name, draft.members⟩ :: ·)

/-! ## Patterns -/

/-- A condition, given the tasks. -/
def acceptCondition (slugs : List Text) (value : Json) : Except ConditionFault Condition :=
  match value with
  | .obj _ =>
    match label? (value.getD "sourceTask"), label? (value.getD "targetTask"),
      label? (value.getD "outcome") with
    | some source, some target, some outcome => do
      if !outcome.isXmlText then .error .notXml
      if Text.contains sectionEnd outcome then .error .sectionEnd
      if source ∉ slugs then .error (.unknownTask "sourceTask" source)
      if target ∉ slugs then .error (.unknownTask "targetTask" target)
      let declared := value.getD "operator"
      let operator := if declared.isTruthy then declared else .str Comparison.equals.word
      let logical := value.getD "logicalOperator"
      -- a join given as operator is not a comparison
      let join? : Option Text := operator.text?.bind fun t =>
        if (Join.ofWord? t.upper).isSome then some t.upper else none
      let comparison? := match join? with
        | some _ => some Comparison.equals
        | none => operator.text?.bind Comparison.ofWord?
      let joinValue := if logical.isTruthy then logical else .str (join?.getD Join.both.word)
      match comparison?, joinValue.text?.bind fun t => Join.ofWord? t.upper with
      | none, _ => .error .badComparison
      | some _, none => .error .badJoin
      | some comparison, some join => .ok ⟨source, target, outcome, comparison, join⟩
    | _, _, _ => .error .incomplete
  | _ => .error .notObject

/-- Conditions of a pattern from a number on. -/
def acceptConditionsFrom (slugs : List Text) (pattern index : Nat) :
    List Json → Except ParseError (List Condition)
  | [] => .ok []
  | x :: rest =>
    match acceptCondition slugs x with
    | .error fault => .error (.rejected (.condition pattern index fault))
    | .ok c => (acceptConditionsFrom slugs pattern (index + 1) rest).map (c :: ·)

/-- The members of a pattern. -/
def acceptMembers (slugs : List Text) (index : Nat) : List Json → Except ParseError (List Text)
  | [] => .ok []
  | x :: rest => do
    let slug ← atEntry .patterns index (← acceptMember slugs x)
    let members ← acceptMembers slugs index rest
    pure (slug :: members)

/-- A pattern, given the slugs of the tasks. -/
def acceptPattern (slugs : List Text) (index : Nat) (value : Json) : Except ParseError Pattern :=
  match value with
  | .obj _ =>
    match (value.getD "type").text?.bind PatternKind.ofWord? with
    | none => .error (.rejected (.entry .patterns index .badKind))
    | some kind =>
      match value.getD "tasks" with
      | .arr (x :: rest) => do
        let members ← acceptMembers slugs index (x :: rest)
        match value.getD "conditions" with
        | .null => pure ⟨kind, members, []⟩
        | .arr conditions =>
          let conditions ← acceptConditionsFrom slugs index 0 conditions
          pure ⟨kind, members, conditions⟩
        | _ => .error (.rejected (.entry .patterns index .conditionsNotArray))
      | _ => .error (.rejected (.entry .patterns index (.emptyArray "tasks")))
  | _ => .error (.rejected (.entry .patterns index .notObject))

/-- Patterns from a number on. -/
def acceptPatternsFrom (slugs : List Text) (index : Nat) :
    List Json → Except ParseError (List Pattern)
  | [] => .ok []
  | x :: rest => do
    let pattern ← acceptPattern slugs index x
    let patterns ← acceptPatternsFrom slugs (index + 1) rest
    pure (pattern :: patterns)

/-- The patterns of a description, given the slugs of its tasks. -/
def acceptPatterns (slugs : List Text) (value : Json) : Except ParseError (List Pattern) :=
  match value with
  | .null => .ok []
  | .arr items => acceptPatternsFrom slugs 0 items
  | _ => .error (.rejected (.notArray .patterns))

end Validation

open Validation

namespace Logic

/-- The description that an object holds. -/
def accept (value : Json) : Except ParseError Logic :=
  match value with
  | .obj _ => do
    let tasks ← (acceptTasks (value.getD "tasks")).mapError .rejected
    let slugs := tasks.map (·.slug)
    let drafts ← acceptStages slugs (value.getD "stages")
    let patterns ← acceptPatterns slugs (value.getD "patterns")
    let stages ← (finishStages 0 drafts).mapError .rejected
    pure { tasks, patterns, stages }
  | _ => .error (.rejected .notObject)

/-- The description in a JSON text. -/
def parseText (t : Text) : Except ParseError Logic :=
  match Json.read t with
  | .error fault => .error (.rejected (.notJson fault))
  | .ok value => accept value

/-- The description in a value; a text is read as JSON. -/
def parse : Json → Except ParseError Logic
  | .str t => parseText t
  | value => accept value

/-- The description in the bytes of a JSON text. -/
def parseBytes (bytes : List UInt8) : Except ParseError Logic :=
  match Utf8.decode? bytes with
  | .error fault => .error (.notUtf8 fault)
  | .ok t => parseText t

/-- One line for each condition, if its source does not declare its outcome. -/
def undeclaredFrom (logic : Logic) (pattern index : Nat) : List Condition → List Text
  | [] => []
  | c :: rest =>
    let rest := undeclaredFrom logic pattern (index + 1) rest
    if c.outcome ∈ ((logic.task? c.source).map (·.outcomes)).getD [] then rest
    else
      (conditionLabel pattern index ++ ": outcome '" ++ c.outcome ++
        "' is not declared by task '" ++ c.source ++ "'") :: rest

/-- A line for each condition on an outcome that its source does not declare, in order. -/
def undeclaredOutcomes (logic : Logic) : List Text :=
  (logic.patterns.zipIdx).flatMap fun (p, index) => undeclaredFrom logic index 0 p.conditions

end Logic

end CasePlan
