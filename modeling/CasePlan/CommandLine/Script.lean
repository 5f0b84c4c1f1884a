import CasePlan.Compilation
import CasePlan.Deployment.Client
import CasePlan.Inspection.Extraction

/-!
# Scripts

A script is what a command does, step by step: it prints, looks at files and sends requests, and
goes on with what it finds.  Scripts are values; whoever runs one carries out its steps.

`Script.run` carries a script out in a `Directory`, a table of files, with given replies.
-/

namespace CasePlan.CommandLine

/-- Why a file cannot be read or written. -/
inductive FileFault where
  /-- Nothing is there. -/
  | notFound
  /-- A directory is there. -/
  | isDirectory
  /-- The path leads through a file. -/
  | notDirectory
  /-- Anything else. -/
  | other (code : Nat) (reason : Text)
  deriving DecidableEq, Repr

/-- The wording of a fault at a path. -/
def FileFault.message (path : Text) (fault : FileFault) : Text :=
  let (code, reason) : Nat × Text := match fault with
    | .notFound => (2, "No such file or directory")
    | .isDirectory => (21, "Is a directory")
    | .notDirectory => (20, "Not a directory")
    | .other code reason => (code, reason)
  "[Errno " ++ Text.ofNat code ++ "] " ++ reason ++ ": " ++ path.quoted

/-- What stops a command without a report of its own. -/
inductive Stop where
  /-- A setting cannot be read. -/
  | setting (error : SettingError)
  /-- The settings of the deployment have another shape. -/
  | shape (issues : List Schema.Issue)
  /-- A file is not UTF-8. -/
  | notUtf8 (error : Utf8.DecodeError)
  /-- A file cannot be written. -/
  | file (path : Text) (fault : FileFault)
  /-- A case is not compiled. -/
  | compile (error : CompileError)
  /-- A document cannot be inspected. -/
  | inspection (error : InspectionError)
  /-- What is found in a document is no description. -/
  | description (error : ParseError)
  /-- A deployment ends early. -/
  | deployment (error : DeploymentError)

/-- The wording of what stops a command. -/
def Stop.message : Stop → Text
  | .setting e => e.message
  | .shape issues =>
    Text.join "\n" (issues.map fun i => (i.location ++ ": " ++ i.cause.message : Text))
  | .notUtf8 e => e.message
  | .file path fault => fault.message path
  | .compile e => e.message
  | .inspection e => e.message
  | .description e => e.message
  | .deployment e => e.message

/-- What a command does. -/
inductive Script where
  /-- It ends with an exit code. -/
  | finish (code : Nat)
  /-- It is stopped. -/
  | stop (reason : Stop)
  /-- It prints a text. -/
  | print (text : Text) (next : Script)
  /-- It prints a text for the eyes of the user only. -/
  | notify (text : Text) (next : Script)
  /-- It asks whether something exists at a path. -/
  | probe (path : Text) (next : Bool → Script)
  /-- It reads a file. -/
  | read (path : Text) (next : Except FileFault (List UInt8) → Script)
  /-- It writes a file. -/
  | write (path : Text) (content : List UInt8) (next : Option FileFault → Script)
  /-- It sends a request. -/
  | send (request : Request) (next : Reply → Script)

namespace Script

/-- A line for the eyes of the user, and an exit code. -/
def abort (line : Text) : Script := .notify (line ++ "\n") (.finish 1)

/-- Prints a line. -/
def printLine (line : Text) (next : Script) : Script := .print (line ++ "\n") next

/-- Prints lines. -/
def printLines (lines : List Text) (next : Script) : Script := lines.foldr printLine next

/-- Carries out an exchange. -/
def ofExchange {α : Type} (next : α → Script) : Exchange α → Script
  | .done result => next result
  | .ask request go => .send request fun reply => ofExchange next (go reply)

end Script

/-! ## Directories -/

/-- Files with their bytes, and directories with nothing, under the parts of their paths. -/
abbrev Directory := List (List Text × Option (List UInt8))

/-- What lies at a path. -/
inductive Entry where
  /-- Nothing. -/
  | nothing
  /-- A directory. -/
  | directory
  /-- A file with its bytes. -/
  | file (content : List UInt8)

namespace Directory

/-- What lies at the end of some parts. -/
def entry (d : Directory) (parts : List Text) : Entry :=
  match Table.get? parts d with
  | some (some content) => .file content
  | some none => .directory
  | none => if d.any fun (path, _) => parts.isPrefixOf path then .directory
      else if parts.isEmpty then .directory else .nothing

/-- Follows the steps of a path from some parts on. -/
def follow (d : Directory) (parts : List Text) : List Text → Except FileFault (List Text)
  | [] => .ok parts
  | step :: rest =>
    match d.entry parts with
    | .nothing => .error .notFound
    | .file _ => .error .notDirectory
    | .directory =>
      if step = [] ∨ step = ("." : Text) then follow d parts rest
      else if step = (".." : Text) then
        if parts.isEmpty then .error .notFound else follow d parts.dropLast rest
      else follow d (parts ++ [step]) rest

/-- Where a path leads. -/
def resolve (d : Directory) (path : Text) : Except FileFault (List Text) :=
  if path.isEmpty ∨ path.head? = some (CodePoint.ofChar '/') then .error .notFound
  else follow d [] (Text.splitOn "/" path)

/-- Whether something exists at a path. -/
def exists? (d : Directory) (path : Text) : Bool :=
  match d.resolve path with
  | .error _ => false
  | .ok parts => !(d.entry parts matches .nothing)

/-- The bytes of the file at a path. -/
def read (d : Directory) (path : Text) : Except FileFault (List UInt8) :=
  match d.resolve path with
  | .error fault => .error fault
  | .ok parts =>
    match d.entry parts with
    | .file content => .ok content
    | .directory => .error .isDirectory
    | .nothing => .error .notFound

/-- Writes a file at a path. -/
def write (d : Directory) (path : Text) (content : List UInt8) : Except FileFault Directory :=
  match d.resolve path with
  | .error fault => .error fault
  | .ok parts =>
    match d.entry parts with
    | .directory => .error .isDirectory
    | _ => .ok (Table.insert parts (some content) d)

end Directory

/-! ## Runs -/

/-- What a run leaves behind. -/
structure Run where
  /-- The exit code, or what stopped the command. -/
  outcome : Except Stop Nat
  /-- What was printed. -/
  output : Text := []
  /-- What was printed for the eyes of the user only. -/
  notices : Text := []
  /-- The requests that were sent. -/
  requests : List Request := []
  /-- The files. -/
  directory : Directory

/-- Carries a script out.  Replies come in order; after the last one come empty answers. -/
def Script.run (d : Directory) (replies : List Reply) : Script → Run
  | .finish code => { outcome := .ok code, directory := d }
  | .stop reason => { outcome := .error reason, directory := d }
  | .print text next =>
    let r := next.run d replies
    { r with output := text ++ r.output }
  | .notify text next =>
    let r := next.run d replies
    { r with notices := text ++ r.notices }
  | .probe path next => (next (d.exists? path)).run d replies
  | .read path next => (next (d.read path)).run d replies
  | .write path content next =>
    match d.write path content with
    | .ok after => (next none).run after replies
    | .error fault => (next (some fault)).run d replies
  | .send request next =>
    let r := (next (replies.headD (.answer 200 (.value .null)))).run d replies.tail
    { r with requests := request :: r.requests }

end CasePlan.CommandLine
