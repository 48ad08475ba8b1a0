import ServerSettings.Files.Host
import ServerSettings.Json.Reader
import ServerSettings.Resolution.Basic
import ServerSettings.Text.Encoding

/-!
The file of settings: where it is looked for, how it is read, and the way from it to final settings.
-/

namespace ServerSettings

namespace ConfigFile

/-- Reads settings from the bytes of a file. -/
def parse (file : String) (bytes : List UInt8) : Except Error Settings :=
  match Encoding.decodeDetected bytes with
  | .error broken => .error (.document (.undecodable file broken.message) documentHint)
  | .ok cs =>
    match Json.readChars {} cs with
    | .error (.tooDeep container) => .error (.nesting (Json.Fault.message cs (.tooDeep container)))
    | .error fault => .error (.document (.undecodable file (fault.message cs)) documentHint)
    | .ok (.obj members) => Settings.decode (.obj members)
    | .ok _ => .error (.document (.notObject file) documentHint)

variable {m : Type → Type} [Monad m] [Host m]

/-- A result with what was noted on the way to it. -/
structure Noted (α : Type) where
  notes : List Note
  result : Except Error α

/-- The first candidate that exists. -/
def firstPresent : List PathName → m (Noted PathName)
  | [] => return ⟨[], .error (.document .noneFound documentHint)⟩
  | p :: rest => do
    if p.hasNull then return ⟨[], .error .nullByte⟩
    match ← Host.status p with
    | .ok _ => return ⟨[], .ok p⟩
    | .error refusal =>
      if refusal = .missing ∨ refusal = .notDirectory then
        let found ← firstPresent rest
        return ⟨.candidateMissing p.text :: found.notes, found.result⟩
      else
        let reason := .inaccessible p.text (Host.fault p refusal)
        return ⟨[], .error (.document reason documentHint)⟩

/-- The directory in which a file is looked for: the one given, or the working directory. -/
def searchDirectory (directory : Option String) : m (Except Error PathName) := do
  match directory with
  | some directory => return .ok (PathName.ofText directory)
  | none =>
    match ← Host.workingDirectory with
    | .ok p => return .ok p
    | .error refusal => return .error (.document (.noWorkingDirectory ⟨refusal, none⟩) documentHint)

/-- The file to read: the one given, the one that the environment names, or the first that exists of
the usual ones. An empty name counts as none. -/
def locate (file : Option String) (env : Environment) (directory : Option String) :
    m (Noted PathName) := do
  match (file.filter (· ≠ "")).or (env.value? Tables.fileVariable) with
  | some name => return ⟨[], ← Host.expandHome (PathName.ofText name)⟩
  | none =>
    match ← searchDirectory directory with
    | .error e => return ⟨[], .error e⟩
    | .ok base =>
      firstPresent [base.join (PathName.ofText Tables.fileName), PathName.ofText Tables.systemFile]

/-- Settings as the file holds them. -/
def readFile (p : PathName) : m (Except Error Settings) := do
  if p.hasNull then
    return .error (.document (.undecodable p.text Error.nullByte.message) documentHint)
  match ← Host.read p with
  | .ok bytes => return parse p.text bytes
  | .error .missing => return .error (.document (.missing p.text) documentHint)
  | .error refusal =>
    return .error (.document (.unreadable p.text (Host.fault p refusal)) documentHint)

/-- Settings and the problems collected on the way. -/
abbrev Loaded := Settings × List Problem

/-- Finds the file, reads it and resolves its settings. -/
def load (file : Option String) (env : Environment) (directory : Option String) (policy : Policy) :
    m (Noted Loaded) := do
  let located ← locate file env directory
  match located.result with
  | .error e => return ⟨located.notes, .error e⟩
  | .ok p =>
    let notes := located.notes ++ [.loading p.text]
    match ← readFile p with
    | .error e => return ⟨notes, .error e⟩
    | .ok s =>
      let outcome := s.resolve env policy
      return ⟨notes ++ outcome.notes, outcome.result.map fun found => (outcome.settings, found)⟩

end ConfigFile

/-- Are settings read back from their own rendering equal to them? -/
def Settings.roundTrips (s : Settings) : Except Error Bool := do
  let text ← s.render
  match Json.read text with
  | .error fault => .error (.document (.stated (fault.message text.toList)) none)
  | .ok document =>
    let back ← Settings.decode document
    return back.same s

end ServerSettings
