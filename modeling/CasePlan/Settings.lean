import CasePlan.Document.Basic
import CasePlan.Table
import CasePlan.Text.Number
import CasePlan.Text.Quoted

/-!
# Settings from the environment

An environment is a table of variables.  `Config.ofEnvironment` takes the settings of a compilation
from it; what is not set has its default, and a layout that does not exist is as good as none.
-/

namespace CasePlan

/-- Variables with their values. -/
abbrev Environment := List (Text × Text)

/-- Why a setting cannot be read. -/
inductive SettingError where
  /-- A text that is no whole number. -/
  | notWhole (value : Text)
  /-- A text that is no number. -/
  | notNumber (value : Text)
  deriving DecidableEq, Repr

/-- The wording of an error; a long text is cut after two hundred code points. -/
def SettingError.message : SettingError → Text
  | .notWhole value =>
    "invalid literal for int() with base 10: " ++ (value.quoted.take 200 : Text)
  | .notNumber value => "could not convert string to float: " ++ value.quoted

namespace Environment

/-- The value of a variable. -/
def get? (env : Environment) (name : Text) : Option Text := Table.get? name env

/-- The value of a variable, or a default. -/
def getD (env : Environment) (name default : Text) : Text := (env.get? name).getD default

/-- A variable that holds a whole number. -/
def whole (env : Environment) (name : Text) (default : Int) : Except SettingError Int :=
  match env.get? name with
  | none => .ok default
  | some t =>
    match t.readWhole? with
    | some n => .ok n
    | none => .error (.notWhole t)

/-- A variable that holds a number. -/
def number (env : Environment) (name : Text) (default : Float) : Except SettingError Float :=
  match env.get? name with
  | none => .ok default
  | some t =>
    match t.readFloat? with
    | some x => .ok x
    | none => .error (.notNumber t)

end Environment

/-- The words that switch something on. -/
def switchWords : List Text := ["1", "true", "yes"]

/-- The settings of a compilation in an environment. -/
def Config.ofEnvironment (env : Environment) : Except SettingError Config := do
  let standard : Config := {}
  let repetitionLimit ← env.whole "CMMN_DEFAULT_REPETITION_LIMIT" standard.repetitionLimit
  pure
    { layoutMode :=
        (LayoutMode.ofWord? (env.getD "CMMN_LAYOUT_MODE" standard.layoutMode.word)).getD
          standard.layoutMode
      repetitionLimit
      assignee := env.getD "CMMN_DEFAULT_ASSIGNEE" standard.assignee
      prettyPrint := (env.getD "CMMN_PRETTY_PRINT" "true").lower ∈ switchWords }

end CasePlan
