import ServerSettings.Environment
import ServerSettings.Settings.Access
import ServerSettings.Tables

/-!
The layers over a file: the environment, which wins over it, and the defaults, which fill what is empty.
-/

namespace ServerSettings

/-- A change to settings that may fail half way; what it did before it failed stays. -/
abbrev Edit := ExceptT Error (StateM Settings)

namespace Edit

def ofExcept {α : Type} (result : Except Error α) : Edit α :=
  fun s => (result, s)

/-- Changes the settings, or fails and leaves them as they are. -/
def change (f : Settings → Except Error Settings) : Edit Unit :=
  fun s =>
    match f s with
    | .ok s' => (.ok (), s')
    | .error e => (.error e, s)

end Edit

namespace Resolution

/-- Does a variable apply to a leaf? Below a storage group it does if the group is the selected one. -/
def applies (s : Settings) : Leaf → Bool
  | .database d _ => s.text .dialect = d.name
  | _ => true

/-- Says which variable a failure is about. -/
def blame (path name : String) : Error → Error
  | .coercion _ reason => .coercion path (.environment name reason)
  | e => e

/-- Overrides one leaf by its variable; tells whether it did. -/
def applyVariable (env : Environment) (l : Leaf) (name : String) : Edit Bool := do
  let s ← get
  if applies s l then
    match env.value? name with
    | some value =>
      Edit.change fun s => (s.setLeaf l (.text value)).mapError (blame l.path name)
      return true
    | none => return false
  else return false

def applyVariables (env : Environment) : List (Leaf × String) → Edit (List Leaf)
  | [] => return []
  | (l, name) :: rest => do
    let applied ← applyVariable env l name
    let more ← applyVariables env rest
    return if applied then l :: more else more

/-- Overrides settings by the environment; gives the leaves that it set. -/
def applyEnvironment (env : Environment) : Edit (List Leaf) :=
  applyVariables env Tables.overrides

/-- Fills a leaf that is empty; tells whether it was. -/
def applyDefault (l : Leaf) (value : String) : Edit Bool := do
  let text ← Edit.ofExcept ((← get).leafText l)
  if text = "" then
    Edit.change fun s => s.setLeaf l (.text value)
    return true
  else return false

def applyDefaultsOf : List (Leaf × String) → Edit (List Leaf)
  | [] => return []
  | (l, value) :: rest => do
    let applied ← applyDefault l value
    let more ← applyDefaultsOf rest
    return if applied then l :: more else more

/-- Fills empty settings; gives the leaves that it set. -/
def applyDefaults : Edit (List Leaf) :=
  applyDefaultsOf Tables.defaults

end Resolution

end ServerSettings
