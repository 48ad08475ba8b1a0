import ServerSettings.Backend
import ServerSettings.Command.Request
import ServerSettings.ConfigFile
import ServerSettings.Console.Printed
import ServerSettings.Incident
import ServerSettings.Log.Redaction

/-!
What commands print of settings that have been loaded, and of the variables that override them.
-/

namespace ServerSettings.Command

/-- Why a command fails: it declines to do something, the settings are at fault, or what it prints is,
which a crash names. -/
inductive Failure where
  | declined (text : String)
  | settings (e : Error)
  | output (crash : String)

/-- What a command comes to: an exit code and what it printed. -/
abbrev Report := Except Failure (ExitCode × Console.Printed)

open Console

namespace View

/-- Only the view of problems wants them collected. -/
def policy : View → Policy
  | .problems => .collect
  | _ => .refuse

/-- The document of settings, with its secrets replaced if that is wanted. -/
def documentText (redacted : Bool) (s : Settings) : Except Error String := do
  let text ← s.render
  if redacted then (Json.text Settings.layout s.toJson.redact).mapError .number else return text

def problemLines (found : List Problem) : ExitCode × Printed :=
  match found with
  | [] => (.success, ({} : Printed).success "configuration is valid")
  | found => (.validationFailed, found.foldl (fun p problem => p.failure problem.message) {})

/-- A view of loaded settings. -/
def report (view : View) (env : Environment) (isColoured : Bool) (loaded : ConfigFile.Loaded) : Report :=
  let (s, found) := loaded
  match view with
  | .document redacted => do
    let text ← (documentText redacted s).mapError .settings
    let shown ← (({} : Printed).json isColoured text).mapError fun (title, message) =>
      .output (Incident.line title message)
    return (.success, shown)
  | .problems => .ok (problemLines found)
  | .summary => do
    let c ← (Backend.connection env s).mapError .settings
    return (.success, ({} : Printed).text c.summary)
  | .descriptor withDatabase => do
    let c ← (Backend.connection env s).mapError .settings
    return (.success, ({} : Printed).text (c.descriptor withDatabase))

end View

/-- A row for each setting that a variable overrides. -/
def variableTable (env : Environment) : Table where
  headers := ["setting", "variable", "status"]
  rows := Tables.overrides.map fun (leaf, name) =>
    [leaf.path, name, if (env.value? name).isSome then "set" else "-"]

def variableReport (env : Environment) : Report :=
  match ({} : Printed).table (variableTable env) with
  | .ok shown => .ok (.success, shown)
  | .error fault => .error (.output (Incident.line "MarkupError" fault.message))

end ServerSettings.Command
