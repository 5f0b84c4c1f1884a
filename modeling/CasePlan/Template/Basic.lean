import CasePlan.Json.Reader
import CasePlan.Logic.Validation
import CasePlan.Schema.Basic
import CasePlan.Text.Utf8

/-!
# Templates

A template is a named description, ready to be compiled.  Templates are kept one a file; a library
is what a directory of such files holds.

* `Library.ofFiles` goes through the files by name.  A file that is no template is passed over, and
  of two templates with one identifier the later one counts, at the place of the earlier.
* `Shelf` loads a library when it is first asked for one and keeps it from then on.
-/

namespace CasePlan

/-- A named description. -/
structure Template where
  /-- Its identifier. -/
  id : Text
  /-- Its name for readers. -/
  name : Text
  /-- What it is for. -/
  description : Text := []
  /-- The description as data. -/
  body : List (Text × Json)

/-- Reads an object as it is. -/
def Schema.members : Json → Schema.Checked (List (Text × Json))
  | .obj members => .good members
  | _ => .fault .object

namespace Template

open Schema

/-- A template by its shape. -/
def ofJson : Json → Checked Template
  | .obj members =>
    Template.mk
      <$> field ["id"] none text members
      <*> field ["name"] none text members
      <*> field ["description"] (some []) text members
      <*> field ["template"] none Schema.members members
  | _ => .fault (.record "BusinessTemplate")

/-- The description as data. -/
def toJson (t : Template) : Json := .obj t.body

/-- The description, if it is accepted. -/
def logic (t : Template) : Except ParseError Logic := Logic.parse t.toJson

/-- The template in the bytes of a file, if there is one. -/
def ofBytes? (bytes : List UInt8) : Option Template :=
  match Utf8.decode? bytes with
  | .error _ => none
  | .ok t =>
    match Json.read t with
    | .error _ => none
    | .ok value =>
      match ofJson value with
      | .good template => some template
      | .bad _ => none

end Template

/-- Templates under their identifiers. -/
abbrev Library := List (Text × Template)

namespace Library

/-- Whether a name is one of a template file. -/
def isTemplateFile (name : Text) : Bool :=
  (Text.before? ".json" name).isSome && CodePoint.ofChar '/' ∉ name

/-- The library of some templates. -/
def ofTemplates (templates : List Template) : Library :=
  Table.ofList (templates.map fun t => (t.id, t))

/-- The library of a directory: names with the bytes of files, or with nothing for directories. -/
def ofFiles (files : List (Text × Option (List UInt8))) : Library :=
  let named := (files.filter (isTemplateFile ·.1)).mergeSort
    fun a b => Text.precedesOrEq a.1 b.1
  ofTemplates (named.filterMap fun (_, bytes?) => bytes?.bind Template.ofBytes?)

/-- The templates, in the order of their files. -/
def templates (library : Library) : List Template := library.map (·.2)

/-- The template with an identifier. -/
def find? (library : Library) (id : Text) : Option Template := Table.get? id library

/-- The identifiers in the order of code points. -/
def ids (library : Library) : List Text :=
  (library.map (·.1)).mergeSort Text.precedesOrEq

/-- The wording for an identifier that no template has. -/
def unknownMessage (library : Library) (id : Text) : Text :=
  "Unknown template '" ++ id ++ "'. Available: " ++ Text.join ", " library.ids

end Library

/-- A place for a library, empty until the first use. -/
structure Shelf where
  /-- The library, once it is loaded. -/
  loaded : Option Library := none

/-- The library and the shelf that holds it; `load` is used only the first time. -/
def Shelf.library (s : Shelf) (load : Unit → Library) : Library × Shelf :=
  match s.loaded with
  | some library => (library, s)
  | none =>
    let library := load ()
    (library, ⟨some library⟩)

end CasePlan
