import CasePlan.CommandLine.Program
import CasePlan.Template.Shipped

/-!
# The executable

Runs the program on the command line that it is called with.  This module alone touches files, the
environment and the terminal; what the program does is decided in `CommandLine/Program`.  There is
no transport to a backend here, so every request ends without a connection.
-/

namespace CasePlan.CommandLine

/-- The variables that settings are read from. -/
def settingNames : List String :=
  ["CMMN_LAYOUT_MODE", "CMMN_DEFAULT_REPETITION_LIMIT", "CMMN_DEFAULT_ASSIGNEE",
    "CMMN_PRETTY_PRINT", "CMMN_DEPLOY_BASE_URL", "CMMN_DEPLOY_TOKEN", "CMMN_DEPLOY_TIMEOUT"]

/-- The settings that are made in the environment. -/
def readEnvironment : IO Environment :=
  settingNames.filterMapM fun name => do
    pure ((← IO.getEnv name).map fun value => (Text.ofString name, Text.ofString value))

/-- The fault that a file operation ended with. -/
def faultOf (e : IO.Error) : FileFault :=
  match e with
  | .noFileOrDirectory .. => .notFound
  | .inappropriateType .. => .isDirectory
  | e => .other 5 (Text.ofString (toString e))

/-- Whether a file or directory can be opened. -/
def canOpen (path : String) : IO Bool := do
  try
    let _ ← IO.FS.Handle.mk path .read
    pure true
  catch _ => pure false

/-- Reads the bytes of a file. -/
def readBytes (path : String) : IO (Except FileFault (List UInt8)) := do
  try
    pure (.ok (← IO.FS.readBinFile path).toList)
  catch e => pure (.error (faultOf e))

/-- Writes bytes to a file. -/
def writeBytes (path : String) (content : List UInt8) : IO (Option FileFault) := do
  try
    IO.FS.writeBinFile path ⟨content.toArray⟩
    pure none
  catch e => pure (some (faultOf e))

/-- Carries out the steps of a script. -/
def Script.perform : Script → IO UInt32
  | .finish code => pure code.toUInt32
  | .stop reason => do
    IO.eprintln reason.message.toString
    pure 1
  | .print text next => do
    IO.print text.toString
    next.perform
  | .notify text next => do
    IO.eprint text.toString
    next.perform
  | .probe path next => do
    let found ← canOpen path.toString
    (next found).perform
  | .read path next => do
    let content ← readBytes path.toString
    (next content).perform
  | .write path content next => do
    let fault ← writeBytes path.toString content
    (next fault).perform
  | .send _ next => (next (.failure "no connection")).perform

end CasePlan.CommandLine

open CasePlan CasePlan.CommandLine in
/-- Runs the program. -/
def main (words : List String) : IO UInt32 := do
  let surroundings : Surroundings :=
    { environment := ← readEnvironment, library := Library.shipped }
  (program surroundings (words.map Text.ofString)).perform
