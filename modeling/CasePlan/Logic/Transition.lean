import CasePlan.Logic.Basic

/-!
# Transitions

A transition lets its target start when its source has ended.  A pattern implies transitions by its
kind; a condition that it declares for the same pair of tasks takes the place of an implied
transition, and all other declared conditions follow after the implied ones.

* `Pattern.transitions` are the transitions of one pattern, `Logic.transitions` those of all
  patterns without repetition.
* `Logic.repeatable` are the tasks that may be done more than once.
* `Logic.unknownApprover?` is the first member of an approval chain that has no task and therefore
  no outcome to approve with.
-/

namespace CasePlan

/-- An edge from one task to another. -/
structure Transition where
  /-- Slug of the task that ends. -/
  source : Text
  /-- Slug of the task that may start. -/
  target : Text
  /-- The condition on it, if there is one. -/
  condition : Option Condition := none
  deriving DecidableEq, Repr

namespace Transition

/-- Whether the transition leads from a task to itself. -/
def isSelfLoop (t : Transition) : Bool := t.source = t.target

/-- Source and target. -/
def ends (t : Transition) : Text × Text := (t.source, t.target)

end Transition

namespace Condition

/-- Source and target. -/
def ends (c : Condition) : Text × Text := (c.source, c.target)

/-- The transition that a condition declares. -/
def transition (c : Condition) : Transition := ⟨c.source, c.target, some c⟩

end Condition

namespace Pattern

/-- The pairs of neighbours in a list. -/
def neighbours {α : Type} (items : List α) : List (α × α) := items.zip items.tail

/-- The condition that the source ended in its first outcome. -/
def approval (task? : Text → Option Task) (source target : Text) : Option Condition := do
  let task ← task? source
  let outcome ← task.outcomes.head?
  pure { source, target, outcome }

/-- The transitions that the kind of the pattern implies, in the order of its members. -/
def implied (p : Pattern) (task? : Text → Option Task) : List Transition :=
  match p.kind with
  | .sequential | .retry => (neighbours p.members).map fun (s, t) => ⟨s, t, none⟩
  | .approvalChain => (neighbours p.members).map fun (s, t) => ⟨s, t, approval task? s t⟩
  | .parallel => []
  | .conditional =>
    match p.members with
    | [] => []
    | decision :: branches => branches.map fun branch => ⟨decision, branch, none⟩

/-- The conditions that the pattern declares for a pair of tasks. -/
def declared (p : Pattern) (ends : Text × Text) : List Condition :=
  p.conditions.filter (·.ends = ends)

/-- The first transition for each pair. -/
def firstOfEnds (ts : List Transition) : List Transition :=
  ts.eraseDupsBy fun t u => t.ends == u.ends

/-- The transitions of the pattern: for each implied pair the declared conditions or, if there are
none, the implied transition; then the conditions declared for other pairs. -/
def transitions (p : Pattern) (task? : Text → Option Task) : List Transition :=
  let implied := firstOfEnds (p.implied task?)
  let placed := implied.flatMap fun t =>
    match p.declared t.ends with
    | [] => [t]
    | conditions => conditions.map Condition.transition
  placed ++ (p.conditions.filter (·.ends ∉ implied.map Transition.ends)).map Condition.transition

/-- The last place of a task in the pattern. -/
def place? (p : Pattern) (slug : Text) : Option Nat :=
  (p.members.reverse.idxOf? slug).map (p.members.length - 1 - ·)

/-- Whether a condition leads back: both ends are members and the target does not come after the
source. -/
def leadsBack (p : Pattern) (c : Condition) : Bool :=
  match p.place? c.source, p.place? c.target with
  | some s, some t => t ≤ s
  | _, _ => false

/-- The tasks that a retry pattern opens again. -/
def reopened (p : Pattern) : List Text :=
  match p.kind with
  | .retry => (p.conditions.filter p.leadsBack).map Condition.target
  | _ => []

end Pattern

namespace Logic

/-- The transitions of all patterns in order, each once. -/
def transitions (logic : Logic) : List Transition :=
  (logic.patterns.flatMap (·.transitions logic.task?)).eraseDups

/-- The first task of an approval chain, other than its last one, that is not a task of the
logic. -/
def unknownApprover? (logic : Logic) : Option Text :=
  logic.patterns.findSome? fun p =>
    match p.kind with
    | .approvalChain => p.members.dropLast.find? fun slug => (logic.task? slug).isNone
    | _ => none

/-- Whether a task declares that it may be done more than once. -/
def declaresRepetition (task : Task) : Bool :=
  match task.repetitionLimit with
  | some limit => 1 < limit
  | none => false

/-- The tasks that may be done more than once, each once: those that declare it, those that a
retry pattern opens again, and those with a transition to themselves. -/
def repeatable (logic : Logic) : List Text :=
  let declaring := (logic.tasks.filter declaresRepetition).map (·.slug)
  let reopened := logic.patterns.flatMap Pattern.reopened
  let looping := (logic.transitions.filter Transition.isSelfLoop).map Transition.target
  (reopened ++ looping).foldl (fun slugs slug => if slug ∈ slugs then slugs else slugs ++ [slug])
    declaring

end Logic

end CasePlan
