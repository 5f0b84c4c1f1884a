import CasePlan.Document.Drawing
import CasePlan.Xml.Writer

/-!
# Writing documents

`root` is the document in the making, `tree` the document with all its texts settled in document
order, `emit` its text.  The first text that is missing, or that XML cannot carry, is reported
instead.
-/

namespace CasePlan.Document

variable {α : Type} [Coordinate α]

/-- The root of the document in the making. -/
def root (c : Context α) : Piece :=
  let more : List (Text × Text) :=
    [("targetNamespace", "http://www.flowable.org/casedef"),
      ("exporter", "Flowable Open Source Modeler")]
  element "definitions" (namespaces ++ more) [caseElement c, diagramElement c]

/-! ## Settling the texts -/

/-- A text that is known and that XML can carry. -/
def settle (t : Draft) : Except DocumentError Text :=
  match t with
  | .error slug => .error (.unknownSlug slug)
  | .ok t => if t.isXmlText then .ok t else .error .notXml

/-- The tree of the document. -/
def tree (c : Context α) : Except DocumentError (Xml.Node Text) :=
  (root c).traverse settle

/-- The first line of every document. -/
def declaration : Text := "<?xml version=\"1.0\" encoding=\"UTF-8\"?>\n"

/-- The text of a document, in lines or not. -/
def render (prettyPrint : Bool) (t : Xml.Node Text) : Text :=
  declaration ++ (if prettyPrint then t.writeIndented 0 ++ "\n" else t.write)

/-- The document of a routed diagram. -/
def emit (c : Context α) : Except DocumentError Text := do
  if let some slug := c.logic.unknownApprover? then .error (.unknownSlug slug)
  (tree c).map (render c.config.prettyPrint)

end CasePlan.Document
