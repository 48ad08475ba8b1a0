import ServerSettings.Resolution.Layers
import ServerSettings.Text.Base64

/-!
Validation: every setting must match its pattern as a whole, and keys must be Base64. Problems are
collected; a message never shows the value of a secret.
-/

namespace ServerSettings

/-- What validation finds wrong. The value is kept only if it may be shown. -/
inductive Problem where
  | mismatch (path value : String) (pattern : Pattern)
  | secretMismatch (path : String) (pattern : Pattern)
  | notBase64 (path : String)
  deriving DecidableEq, Repr

namespace Problem

def path : Problem → String
  | .mismatch path _ _ => path
  | .secretMismatch path _ => path
  | .notBase64 path => path

def message : Problem → String
  | .mismatch path value pattern =>
    "value of setting " ++ Text.quoted path ++ " is not valid: " ++ Text.quoted value ++
      " (must match pattern " ++ Text.quoted pattern.source ++ ")"
  | .secretMismatch path pattern =>
    "value of setting " ++ Text.quoted path ++ " is not valid! (must match pattern " ++
      Text.quoted pattern.source ++ ")"
  | .notBase64 path => "value of setting " ++ Text.quoted path ++ " is not valid base64"

end Problem

/-- The bytes of a key in Base64. -/
def decodeKey? (value : String) : Option (List UInt8) :=
  Base64.decode? value

/-- Parts of a path that tell of a secret, in lower case. -/
def secretMarkers : List String := ["assword", "ecret"]

/-- Must the value at a path be withheld from messages? -/
def isSecretPath (path : String) : Bool :=
  path ∈ Tables.keys.map (·.name) ||
    secretMarkers.any fun marker => Text.occurs marker.toList (Text.lower path)

def portMark : Char := ':'

/-- A port with its leading colon. -/
def normalizePort (port : String) : String :=
  if port.toList.head? = some portMark then port else String.ofList (portMark :: port.toList)

namespace Resolution

/-- The problem with a value, if it does not match. -/
def mismatch? (path value : String) (pattern : Pattern) : Option Problem :=
  if pattern.matches? value then none
  else if isSecretPath path then some (.secretMismatch path pattern)
  else some (.mismatch path value pattern)

/-- The values that do not match, in the order of the patterns. -/
def mismatches (s : Settings) : List (String × Pattern) → Except Error (List Problem)
  | [] => .ok []
  | (path, pattern) :: rest => do
    let value ← s.get path
    let more ← mismatches s rest
    return (mismatch? path value pattern).toList ++ more

/-- Keys that are no Base64, apart from those already reported and empty ones. -/
def undecodable (s : Settings) (failed : List String) : List Problem :=
  (Tables.keys.filter fun f =>
    f.name ∉ failed && s.text f ≠ "" && (decodeKey? (s.text f)).isNone).map fun f => .notBase64 f.name

def problems (s : Settings) (patterns : List (String × Pattern)) : Except Error (List Problem) := do
  let found ← mismatches s patterns
  return found ++ undecodable s (found.map (·.path))

/-- How many settings have a problem. -/
def countFailed (found : List Problem) : Nat :=
  (found.map (·.path)).eraseDups.length

def tablePatterns : List (String × Pattern) :=
  Tables.patterns.map fun p => (p.1.path, p.2)

/-- Gives the port its leading colon. -/
def correctPort : Edit Unit := do
  let port := (← get).text .port
  if normalizePort port ≠ port then
    Edit.change fun s => (Leaf.text .port).assign s (normalizePort port)

/-- Corrects the port and finds every problem. -/
def validate (patterns : List (String × Pattern) := tablePatterns) : Edit (List Problem) := do
  correctPort
  Edit.ofExcept (problems (← get) patterns)

/-- Fails with all problems at once, if there are any. -/
def check : Edit Unit := do
  let found ← validate
  if found ≠ [] then throw (.validation (found.map (·.message)))

end Resolution

end ServerSettings
