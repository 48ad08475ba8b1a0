import ServerSettings.Environment
import ServerSettings.Error
import ServerSettings.Files.PathName
import ServerSettings.Keys

/-!
What a program asks of the machine that it runs on.
-/

namespace ServerSettings

inductive FileKind where
  | file
  | directory
  | other
  deriving DecidableEq, Repr

/-- Links are followed, save by `makeDirectory`, which refuses a name that is taken. `home` is that of a
user, or of the one who runs the program, and `clock` the seconds since 1970. -/
class Host (m : Type → Type) where
  environment : m Environment
  home : (user : Option String) → m (Option String)
  workingDirectory : m (Except Refusal PathName)
  status : PathName → m (Except Refusal FileKind)
  read : PathName → m (Except Refusal (List UInt8))
  makeDirectory : PathName → m (Except Refusal Unit)
  write : PathName → List UInt8 → m (Except Refusal Unit)
  append : PathName → List UInt8 → m (Except Refusal Unit)
  random : m RandomSource
  clock : m Binary64

namespace Host

variable {m : Type → Type} [Monad m] [Host m]

def fault (p : PathName) (refusal : Refusal) : SystemFault :=
  ⟨refusal, some p.text⟩

/-- Does an answer about a name mean that there is no such file? -/
def isAbsence : Refusal → Bool
  | .missing | .notDirectory | .tooManyLinks => true
  | _ => false

/-- Is there something under a name? -/
def present (p : PathName) : m (Except Error Bool) := do
  if p.hasNull then return .ok false
  match ← status p with
  | .ok _ => return .ok true
  | .error refusal =>
    return if isAbsence refusal then .ok false else .error (.system (fault p refusal))

def isDirectory (p : PathName) : m (Except Error Bool) := do
  if p.hasNull then return .ok false
  match ← status p with
  | .ok kind => return .ok (kind = .directory)
  | .error refusal =>
    return if isAbsence refusal then .ok false else .error (.system (fault p refusal))

/-- Makes a directory; one that exists already will do. -/
def ensureOne (p : PathName) : m (Except Error Unit) := do
  match ← makeDirectory p with
  | .ok () => return .ok ()
  | .error refusal =>
    match ← isDirectory p with
    | .ok true => return .ok ()
    | .ok false => return .error (.system (fault p refusal))
    | .error e => return .error e

/-- Makes a directory and those above it; `fuel` is the number of levels. -/
def ensureAbove : (fuel : Nat) → PathName → m (Except Error Unit)
  | 0, p => ensureOne p
  | fuel + 1, p => do
    if p.hasNull then return .error .nullByte
    match ← makeDirectory p with
    | .ok () => return .ok ()
    | .error .missing =>
      if p.parent = p then return .error (.system (fault p .missing))
      else
        match ← ensureAbove fuel p.parent with
        | .error e => return .error e
        | .ok () => ensureOne p
    | .error refusal =>
      match ← isDirectory p with
      | .ok true => return .ok ()
      | .ok false => return .error (.system (fault p refusal))
      | .error e => return .error e

def ensureDirectory (p : PathName) : m (Except Error Unit) :=
  ensureAbove p.parts.length p

/-- Writes a text, in place of what the file held. -/
def writeText (p : PathName) (text : String) : m (Except Error Unit) := do
  if p.hasNull then return .error .nullByte
  match ← write p (text.toList.flatMap String.utf8EncodeChar) with
  | .ok () => return .ok ()
  | .error refusal => return .error (.system (fault p refusal))

/-- Appends a text to a file, which is made if there is none; gives its name from the root. -/
def appendText (p : PathName) (text : String) : m (Except Error PathName) := do
  let base ← workingDirectory (m := m)
  let full := if p.isHere then (base.toOption.getD {}).join p else p
  if p.hasNull then return .error .nullByte
  match ← append full (text.toList.flatMap String.utf8EncodeChar) with
  | .ok () => return .ok full
  | .error refusal => return .error (.system (fault full refusal))

/-- The variable `HOME`, or what the system knows about the user. -/
def ownHome : m (Option String) := do
  match Dict.lookup (← environment) "HOME" with
  | some home => return some home
  | none => home none

/-- The name of a home directory without slashes at its end, if it can be told. -/
def homeName? (home : Option String) : Except Error PathName :=
  match home with
  | none => .error .noHome
  | some home =>
    let bare := Text.trimEnd (· = '/') home.toList
    if bare.head? = some '~' then .error .noHome
    else .ok (PathName.ofText (if bare.isEmpty then "/" else String.ofList bare))

/-- Replaces a first part that begins with `~` by the home directory that it stands for. -/
def expandHome (p : PathName) : m (Except Error PathName) := do
  match p.start, p.parts with
  | .here, first :: rest =>
    match first.toList with
    | '~' :: user =>
      let home ← if user.isEmpty then ownHome else home (some (String.ofList user))
      return (homeName? home).map fun base => { base with parts := base.parts ++ rest }
    | _ => return .ok p
  | _, _ => return .ok p

end Host

end ServerSettings
