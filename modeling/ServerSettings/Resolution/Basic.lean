import ServerSettings.Resolution.Validation
import ServerSettings.Settings.Freezing

/-!
Resolving settings: environment, defaults, validation, and then they are final.
-/

namespace ServerSettings

/-- What is noted on the way from a file to final settings. -/
inductive Note where
  | candidateMissing (file : String)
  | loading (file : String)
  | overridden (leaves : List Leaf)
  | validating

/-- What becomes of problems: `collect` hands them to the caller, `refuse` fails. -/
inductive Policy where
  | collect
  | refuse
  deriving DecidableEq, Repr

/-- How a resolution went: the settings as it left them, what it noted, and the problems it collected
or why it failed. -/
structure Outcome where
  settings : Settings
  notes : List Note
  result : Except Error (List Problem)

namespace Resolution

def validateUnder : Policy → Edit (List Problem)
  | .collect => validate
  | .refuse => do
    check
    return []

/-- Validates and freezes. -/
def conclude (policy : Policy) (s : Settings) (notes : List Note) : Outcome :=
  match validateUnder policy s with
  | (.error e, s) => ⟨s, notes ++ [.validating], .error e⟩
  | (.ok found, s) => ⟨s.freeze, notes ++ [.validating], .ok found⟩

def overrideNotes (applied : List Leaf) : List Note :=
  if applied.isEmpty then [] else [.overridden applied]

end Resolution

/-- Resolves settings under an environment. -/
def Settings.resolve (env : Environment) (policy : Policy) (s : Settings) : Outcome :=
  match Resolution.applyEnvironment env s with
  | (.error e, s) => ⟨s, [], .error e⟩
  | (.ok applied, s) =>
    match Resolution.applyDefaults s with
    | (.error e, s) => ⟨s, Resolution.overrideNotes applied, .error e⟩
    | (.ok _, s) => Resolution.conclude policy s (Resolution.overrideNotes applied)

end ServerSettings
