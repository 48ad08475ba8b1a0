import ServerSettings.Keys
import ServerSettings.Resolution.Validation

/-!
Fresh settings for a new server.
-/

namespace ServerSettings

/-- Values that count as not given. -/
def Value.isVoid : Value → Bool
  | .none => true
  | .bool b => !b
  | .int n => n = 0
  | .float x => sameNumber 0 x
  | .text s => s.isEmpty
  | .bytes b => b.isEmpty
  | .list items => items.isEmpty
  | .tuple items => items.isEmpty
  | .map entries => entries.isEmpty
  | _ => false

/-- What a new server is set up with: its backend, the fields of that backend's group by name, its port
and its web address. -/
structure SetupPlan where
  dialect : Dialect
  values : Dict Value := []
  port : String := ""
  webHost : String := ""

namespace SetupPlan

def start (plan : SetupPlan) : Settings :=
  { text := fun
      | .dialect => plan.dialect.name
      | .port => plan.port
      | .webHost => plan.webHost
      | _ => "" }

/-- Sets the fields that are given. -/
def fill (plan : SetupPlan) : Dict Value → Edit Unit
  | [] => return ()
  | (name, value) :: rest => do
    if !value.isVoid then
      Edit.change fun s => s.set (Leaf.joinSegments [plan.dialect.name, name]) value
    fill plan rest

def edit (plan : SetupPlan) (source : RandomSource) : Edit Unit := do
  fill plan plan.values
  Keys.replaceAll source
  discard Resolution.applyDefaults
  Resolution.check

/-- Settings with fresh keys, checked but not frozen. -/
def build (plan : SetupPlan) (source : RandomSource) : Except Error Settings :=
  match plan.edit source plan.start with
  | (.ok (), s) => .ok s
  | (.error e, _) => .error e

end SetupPlan

end ServerSettings
