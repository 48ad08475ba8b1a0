import ServerSettings.Log.Registry
import ServerSettings.Resolution.Basic

/-!
The log of a run: what was noted on the way to final settings, as lines.
-/

namespace ServerSettings.Log.Journal

/-- The logger that a run sets up, and the one below it that notes go to. -/
def rootLogger : String := "semaphore_config"

def loaderLogger : String := "semaphore_config.config.loader"

def level : Note → Int
  | .loading _ | .validating => 20
  | .candidateMissing _ | .overridden _ => 10

def message : Note → String
  | .candidateMissing _ => "config candidate not found"
  | .loading _ => "loading config"
  | .overridden _ => "applied environment overrides"
  | .validating => "validating config"

def extra : Note → Dict Value
  | .candidateMissing file => [("config_path", .text file)]
  | .loading file => [("config_path", .text file)]
  | .overridden leaves => [("paths", .list (leaves.map fun l => .text l.path))]
  | .validating => []

def record (created : Binary64) (n : Note) : Record :=
  { logger := loaderLogger, level := level n, created, message := .text (message n), extra := extra n }

def plan (levelName : String) : Plan :=
  { logger := rootLogger, level := .name levelName, stream := some .errorStream }

/-- The lines that a registry has written. -/
def written (g : Registry) : List String :=
  g.handles.flatMap (·.written)

variable {m : Type → Type} [Monad m] [Host m]

/-- Logs notes one after the other, each with its time. -/
def logAll : List Note → Registry → m Registry
  | [], g => return g
  | n :: rest, g => do
    let created ← Host.clock
    match g.log (record created n) with
    | .ok g => logAll rest g
    | .error _ => logAll rest g

/-- The lines that notes become at a level. -/
def lines (levelName : String) (notes : List Note) : m (List String) := do
  let (_, g) ← Registry.setup {} (plan levelName)
  let g ← logAll notes g
  return written (g.shutdown none)

end ServerSettings.Log.Journal
