import CasePlan.Diagram.Layout
import CasePlan.Document.Identifier
import CasePlan.Logic.Transition
import CasePlan.Sentry.Basic
import CasePlan.Xml.Tree

/-!
# What a document is made from

The names that documents use, the settings of a compilation, and `Document.Context`: all that the
pieces of a document are made from.

A piece is made with texts that may be missing, where a slug has no task or node.
-/

namespace CasePlan

/-- What a compilation can be told besides its input. -/
structure Config where
  /-- How the diagram is laid out. -/
  layoutMode : LayoutMode := .alternating
  /-- How often a task may be done that is repeatable and declares no limit. -/
  repetitionLimit : Int := 10
  /-- Who does a task that declares nobody. -/
  assignee : Text := "$\x7binitiator\x7d"
  /-- Whether the document is broken into lines. -/
  prettyPrint : Bool := true
  deriving DecidableEq, Repr

/-- Why no document can be written. -/
inductive DocumentError where
  /-- A slug has no task or node. -/
  | unknownSlug (slug : Text)
  /-- A text holds characters that XML cannot carry. -/
  | notXml
  deriving DecidableEq, Repr

/-- The wording of an error; a slug stands for itself. -/
def DocumentError.message : DocumentError → Text
  | .unknownSlug slug => slug
  | .notXml =>
    "All strings must be XML compatible: Unicode or ASCII, no NULL bytes or control characters"

namespace Document

/-! ## Names -/

/-- The namespace of the case model. -/
def modelNamespace : Text := "http://www.omg.org/spec/CMMN/20151109/MODEL"

/-- The namespace of the case engine. -/
def engineNamespace : Text := "http://flowable.org/cmmn"

/-- The namespace of the diagram. -/
def diagramNamespace : Text := "http://www.omg.org/spec/CMMN/20151109/CMMNDI"

/-- The namespaces that the root declares. -/
def namespaces : List (Text × Text) :=
  [("xmlns", modelNamespace), ("xmlns:xsi", "http://www.w3.org/2001/XMLSchema-instance"),
    ("xmlns:flowable", engineNamespace), ("xmlns:cmmndi", diagramNamespace),
    ("xmlns:dc", "http://www.omg.org/spec/CMMN/20151109/DC"),
    ("xmlns:di", "http://www.omg.org/spec/CMMN/20151109/DI"),
    ("xmlns:modeler", "http://flowable.org/modeler")]

/-- The listener of stages. -/
def lifecycleListener : Text := "org.flowable.ui.application.lifecycle.listener.TemporalListener"

/-- The listener that moves a case on. -/
def flowListener : Text := "org.flowable.ui.application.TriggerTemporalFlow"

/-- The listener that sets the status by the outcome. -/
def statusListener : Text := "org.flowable.ui.application.task.listener.SetVarriable"

/-- The listeners that a document must have. -/
def requiredListeners : List Text := [lifecycleListener, flowListener, statusListener]

/-! ## Texts in the making -/

/-- A text, or the slug for which it would have been made. -/
abbrev Draft := Except Text Text

/-- A piece of a document in the making. -/
abbrev Piece := Xml.Node Draft

/-- An element whose attributes are known. -/
def element (name : Text) (attributes : List (Text × Text)) (children : List Piece) : Piece :=
  .element name (attributes.map fun (name, value) => (name, .ok value)) children

/-- What the pieces of a document are made from. -/
structure Context (α : Type) where
  /-- The description. -/
  logic : Logic
  /-- The diagram. -/
  diagram : Diagram α
  /-- The sentries under the slugs of their nodes. -/
  sentries : List (Text × List (Sentry α))
  /-- The name of the case. -/
  case : Case
  /-- Defaults and format. -/
  config : Config
  /-- The tasks that may be done more than once. -/
  repeatable : List Text := logic.repeatable
  /-- They are those of the description. -/
  repeatable_eq : repeatable = logic.repeatable := by rfl

namespace Context

variable {α : Type}

/-- What the identifiers of a node begin with. -/
def scope (c : Context α) (n : Node α) : Text := Identifier.scope n.parent c.case.name

/-- The identifier of the plan item with a slug, or of the main plan item. -/
def planItemId (c : Context α) (slug : Text) : Draft :=
  if slug = rootContainer then .ok (Identifier.planItemId c.case.mainItem)
  else
    match c.diagram.find? slug with
    | some n => .ok (Identifier.planItemId (c.scope n ++ slug))
    | none => .error slug

/-- The identifier of what a plan item is defined by. -/
def definitionId (c : Context α) (n : Node α) : Text :=
  match n.kind with
  | .stage => Identifier.stageId n.slug
  | .task => c.scope n ++ n.slug

/-- The sentries of a node. -/
def sentriesOf (c : Context α) (n : Node α) : List (Sentry α) :=
  (Table.get? n.slug c.sentries).getD []

end Context

end Document

end CasePlan
