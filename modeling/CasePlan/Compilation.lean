import CasePlan.Document.Emission
import CasePlan.Logic.Validation
import CasePlan.Sentry.Routing

/-!
# Compiling a case

`compile` checks the name of the case, the application, the description and the identifiers, in
this order, and then lays the description out, routes it and writes its document.

`Application.ofJson` accepts an application given by its identifier alone or as an object.
-/

namespace CasePlan

/-- Why a case is not compiled. -/
inductive CompileError where
  /-- The description cannot be read, or an input is rejected. -/
  | input (error : ParseError)
  /-- The application is neither a text nor an object; the word tells its type. -/
  | notApplication (word : Text)
  /-- The slug of the application is no text. -/
  | shape (issues : List Schema.Issue)
  /-- The document cannot be written. -/
  | document (error : DocumentError)
  deriving DecidableEq, Repr

/-- An input is rejected. -/
def CompileError.rejected (r : Rejection) : CompileError := .input (.rejected r)

/-- The wording for a value that has no members. -/
def noMembersMessage (word : Text) : Text := "'" ++ word ++ "' object has no attribute 'get'"

/-- The wording of an error; a slug is quoted, issues are listed one a line. -/
def CompileError.message : CompileError → Text
  | .input e => e.message
  | .notApplication word => noMembersMessage word
  | .shape issues =>
    Text.join "\n" (issues.map fun i => (i.location ++ ": " ++ i.cause.message : Text))
  | .document (.unknownSlug slug) => slug.quoted
  | .document e => e.message

/-! ## Names -/

/-- Whether a code point may begin the name of a case. -/
def isNameStart (c : CodePoint) : Bool :=
  (0x41 ≤ c.val && c.val ≤ 0x5A) || (0x61 ≤ c.val && c.val ≤ 0x7A) || c = '_'

/-- Whether a code point may stand in the name of a case. -/
def isNamePart (c : CodePoint) : Bool :=
  isNameStart c || (0x30 ≤ c.val && c.val ≤ 0x39) || c = '-'

/-- Whether a text is a name: a letter or low line, then letters, digits, low lines and hyphens; one
line feed may follow. -/
def isCaseName (t : Text) : Bool :=
  match t with
  | [] => false
  | c :: rest => isNameStart c && (rest.dropWhile isNamePart).isPrefixOf [.lineFeed]

/-- Refuses an application whose texts XML cannot carry. -/
def Application.check (a : Application) : Except CompileError Application :=
  if !a.identifier.isXmlText then .error (.rejected (.applicationText "identifier"))
  else if !a.slug.isXmlText then .error (.rejected (.applicationText "slug"))
  else .ok a

/-- An application by its identifier, or by an object with its identifier and slug. -/
def Application.ofJson (value : Json) : Except CompileError Application :=
  match value with
  | .str [] => .error (.rejected .noApplication)
  | .str identifier => check { identifier }
  | .obj _ =>
    match value.getD "identifier" with
    | .str (c :: rest) =>
      let slug := value.getD "slug"
      if slug.isTruthy then
        match slug with
        | .str slug => check ⟨c :: rest, slug⟩
        | _ => .error (.shape [⟨["slug"], .text⟩])
      else check { identifier := c :: rest }
    | _ => .error (.rejected .noApplication)
  | _ => .error (.notApplication value.typeWord)

/-! ## Compiling -/

/-- A compiled case, with what its document was made from. -/
structure Compiled where
  /-- The description. -/
  logic : Logic
  /-- The diagram. -/
  diagram : Diagram Rat
  /-- The sentries under the slugs of their nodes. -/
  sentries : List (Text × List (Sentry Rat))
  /-- The document. -/
  document : Text

/-- Gives back a slug that nothing has. -/
def unknown {α : Type} (result : Except Text α) : Except CompileError α :=
  result.mapError fun slug => .document (.unknownSlug slug)

/-- Checks the identifiers of a case, lays it out and routes it: all that its document is made
from. -/
def prepare (config : Config) (c : Case) (logic : Logic) :
    Except CompileError (Document.Context Rat) := do
  (Identifier.check logic c).mapError .rejected
  let diagram ← unknown (layOut config.layoutMode logic)
  let sentries ← unknown (route logic diagram)
  pure { logic, diagram, sentries, case := c, config }

/-- Writes the document of a prepared case. -/
def Compiled.ofContext (context : Document.Context Rat) : Except CompileError Compiled :=
  match Document.emit context with
  | .error e => .error (.document e)
  | .ok document => .ok
    { logic := context.logic
      diagram := context.diagram
      sentries := context.sentries
      document }

/-- Lays out, routes and writes a case. -/
def compileLogic (config : Config) (c : Case) (logic : Logic) : Except CompileError Compiled := do
  Compiled.ofContext (← prepare config c logic)

/-- The case with a name, which is checked first, and an application. -/
def Case.make (name : Json) (application : Except CompileError Application) :
    Except CompileError Case :=
  match name with
  | .str t =>
    if isCaseName t then application.map fun a => ⟨t, a⟩ else .error (.rejected .caseName)
  | _ => .error (.rejected .caseName)

/-- Compiles a description for a case. -/
def compile (config : Config) (case? : Except CompileError Case)
    (description : Except ParseError Logic) : Except CompileError Compiled := do
  let c ← case?
  let logic ← description.mapError .input
  compileLogic config c logic

end CasePlan
