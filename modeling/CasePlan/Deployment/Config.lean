import CasePlan.Schema.Basic
import CasePlan.Settings

/-!
# Where cases are deployed to

`DeploymentConfig` holds the address of the engine's backend, the token to show there, and how long
to wait.  Slashes at the end of the address do not count, and the wait is above zero.
-/

namespace CasePlan

/-- How the backend is reached. -/
structure DeploymentConfig where
  /-- The address, without a slash at its end. -/
  baseUrl : Text := "http://localhost:8080"
  /-- The token shown with every request. -/
  token : Option Text := none
  /-- Seconds to wait for an answer. -/
  timeout : Float := 30.0

/-- A text without the slashes at its end. -/
def dropFinalSlashes (t : Text) : Text :=
  (t.reverse.dropWhile (· = CodePoint.ofChar '/')).reverse

namespace Schema

/-- Seconds to wait: a number above zero. -/
def timeout (value : Json) : Checked Float :=
  (number value).andThen fun x => if x > 0.0 then .good x else .fault .notPositive

end Schema

namespace DeploymentConfig

open Schema

/-- The configuration in data, by its shape. -/
def ofJson : Json → Checked DeploymentConfig
  | .obj members =>
    let standard : DeploymentConfig := {}
    DeploymentConfig.mk
      <$> (field ["base_url"] (some standard.baseUrl) text members).map dropFinalSlashes
      <*> field ["token"] (some standard.token) (optional text) members
      <*> field ["timeout"] (some standard.timeout) Schema.timeout members
  | _ => .fault (.record "DeploymentConfig")

/-- The configuration in an environment, whose values are checked like data. -/
def ofEnvironment (env : Environment) : Except SettingError (Checked DeploymentConfig) := do
  let standard : DeploymentConfig := {}
  let timeout ← env.number "CMMN_DEPLOY_TIMEOUT" standard.timeout
  let token : Json := match env.get? "CMMN_DEPLOY_TOKEN" with
    | some t => .str t
    | none => .null
  pure (ofJson (.obj [("base_url", .str (env.getD "CMMN_DEPLOY_BASE_URL" standard.baseUrl)),
    ("token", token), ("timeout", .float timeout)]))

end DeploymentConfig

end CasePlan
