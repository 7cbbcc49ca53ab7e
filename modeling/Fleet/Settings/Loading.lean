import Fleet.Settings.ControlPlane

/-!
Starting settings: a file, or defaults when there is none, then the environment, then the check.
-/

namespace Fleet.Settings

/-- What a start is stopped by. -/
inductive StartFailure where
  | unreadable (path : String)
  | badConfig (cause : Error)
  | badEnvironment (cause : Error)
  | invalid (cause : Error)
  deriving Repr

def StartFailure.message : StartFailure → String
  | .unreadable path => s!"Failed to read config {path}"
  | .badConfig e => s!"Config parse error: {e.message}"
  | .badEnvironment e => s!"Environment override error: {e.message}"
  | .invalid e => s!"Invalid configuration: {e.message}"

/-- The settings for a file that was asked for, given its content if it can be read. -/
def load (path : String) (content : Option String) (env : Env) :
    Except StartFailure ControlPlane := do
  let some text := content | throw (.unreadable path)
  let base ← (ControlPlane.ofHcl text).mapError .badConfig
  let (s, applied) := base.withEnv env
  applied.mapError .badEnvironment
  s.validate.mapError .invalid
  return s

/-- The values of the named variables that are set. -/
def forwardedSecrets (env : Env) (names : List String) : List (String × String) :=
  names.filterMap fun name => (env.lookup name).map (name, ·)

end Fleet.Settings
