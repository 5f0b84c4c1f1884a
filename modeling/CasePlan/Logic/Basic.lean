import CasePlan.Text.Class

/-!
# Business logic

What a case is described by: tasks with the outcomes they can end in, patterns that order tasks,
and stages that group them.  A pattern implies some of its transitions by its kind and declares
others by conditions on an outcome.

This module holds the types and the look-ups on them; `Logic/Transition` derives the transitions,
`Logic/Validation` says which descriptions are accepted.
-/

namespace CasePlan

/-- How a condition compares the outcome of its source. -/
inductive Comparison where
  /-- The source ended in the outcome. -/
  | equals
  /-- The source ended in another outcome. -/
  | notEquals
  deriving DecidableEq, Repr

/-- How a condition is joined to the one before it. -/
inductive Join where
  /-- Both hold. -/
  | both
  /-- One of them holds. -/
  | either
  deriving DecidableEq, Repr

/-- The target may start when the source has ended and the comparison holds. -/
structure Condition where
  /-- Slug of the task that ends. -/
  source : Text
  /-- Slug of the task that may start. -/
  target : Text
  /-- The outcome that the source's is compared with. -/
  outcome : Text
  /-- The comparison. -/
  comparison : Comparison := .equals
  /-- How it joins the condition before it. -/
  join : Join := .both
  deriving DecidableEq, Repr

/-- A task done by a person. -/
structure Task where
  /-- Its identifier. -/
  slug : Text
  /-- Its name for readers. -/
  displayName : Text
  /-- The outcomes that it can end in, in order. -/
  outcomes : List Text
  /-- Who does it. -/
  assignee : Option Text := none
  /-- The groups whose members may do it. -/
  candidateGroups : Option Text := none
  /-- When it is due. -/
  dueDate : Option Text := none
  /-- The form it is done with. -/
  formKey : Option Text := none
  /-- How often it may be done. -/
  repetitionLimit : Option Int := none
  deriving DecidableEq, Repr

/-- A group of tasks. -/
structure Stage where
  /-- Its identifier. -/
  slug : Text
  /-- Its name for readers. -/
  displayName : Text
  /-- Slugs of its tasks, in order. -/
  members : List Text
  deriving DecidableEq, Repr

/-- The kinds of patterns. -/
inductive PatternKind where
  /-- Each task starts when the one before it has ended. -/
  | sequential
  /-- Each task starts when the one before it has ended in its first outcome. -/
  | approvalChain
  /-- Tasks run side by side; only declared conditions order them. -/
  | parallel
  /-- The first task opens all others. -/
  | conditional
  /-- A sequence whose declared back-edges open earlier tasks again. -/
  | retry
  deriving DecidableEq, Repr

/-- A pattern over some tasks. -/
structure Pattern where
  /-- Its kind. -/
  kind : PatternKind
  /-- Slugs of its tasks, in order. -/
  members : List Text
  /-- Its declared conditions, in order. -/
  conditions : List Condition := []
  deriving DecidableEq, Repr

/-- The description of a case. -/
structure Logic where
  /-- The tasks, in order. -/
  tasks : List Task
  /-- The patterns, in order. -/
  patterns : List Pattern := []
  /-- The stages, in order. -/
  stages : List Stage := []
  deriving DecidableEq, Repr

/-- The application that a case belongs to. -/
structure Application where
  /-- Its identifier. -/
  identifier : Text
  /-- Its short name in identifiers. -/
  slug : Text := "app"
  deriving DecidableEq, Repr

/-! ## Words of the description -/

/-- The word for a comparison. -/
def Comparison.word : Comparison → Text
  | .equals => "equals"
  | .notEquals => "notEquals"

/-- All comparisons, in the order in which messages list them. -/
def Comparison.all : List Comparison := [.equals, .notEquals]

/-- The comparison meant by a word. -/
def Comparison.ofWord? (t : Text) : Option Comparison := all.find? (·.word = t)

@[simp] theorem Comparison.ofWord?_word (c : Comparison) : Comparison.ofWord? c.word = some c := by
  cases c <;> rfl

/-- The word for a join. -/
def Join.word : Join → Text
  | .both => "AND"
  | .either => "OR"

/-- All joins, in the order in which messages list them. -/
def Join.all : List Join := [.both, .either]

/-- The join meant by a word. -/
def Join.ofWord? (t : Text) : Option Join := all.find? (·.word = t)

@[simp] theorem Join.ofWord?_word (j : Join) : Join.ofWord? j.word = some j := by
  cases j <;> rfl

/-- The word for a kind of pattern. -/
def PatternKind.word : PatternKind → Text
  | .sequential => "sequential"
  | .approvalChain => "approval-chain"
  | .parallel => "parallel"
  | .conditional => "conditional"
  | .retry => "retry"

/-- All kinds of patterns, in the order in which messages list them. -/
def PatternKind.all : List PatternKind :=
  [.sequential, .approvalChain, .parallel, .conditional, .retry]

/-- The kind of pattern meant by a word. -/
def PatternKind.ofWord? (t : Text) : Option PatternKind := all.find? (·.word = t)

@[simp] theorem PatternKind.ofWord?_word (k : PatternKind) :
    PatternKind.ofWord? k.word = some k := by
  cases k <;> rfl

/-! ## Looking things up -/

namespace Logic

/-- The task with a slug; of several the last. -/
def task? (logic : Logic) (slug : Text) : Option Task :=
  logic.tasks.reverse.find? (·.slug = slug)

/-- The first stage that has a task among its members. -/
def stageOf? (logic : Logic) (slug : Text) : Option Stage :=
  logic.stages.find? (slug ∈ ·.members)

/-- The place of a task among the tasks; of several with the slug the last. -/
def position? (logic : Logic) (slug : Text) : Option Nat :=
  let slugs := logic.tasks.reverse.map (·.slug)
  (slugs.idxOf? slug).map (logic.tasks.length - 1 - ·)

end Logic

end CasePlan
