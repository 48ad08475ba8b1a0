import ServerSettings.Json.Basic
import ServerSettings.Text.LetterCase
import ServerSettings.Text.Split

/-!
Redaction: values under keys that tell of a secret are replaced, whatever they are.
-/

namespace ServerSettings

def redactedText : String := "***REDACTED***"

def Json.redacted : Json := .str redactedText

/-- Parts of a key that tell of a secret. -/
def sensitiveTerms : List String :=
  ["secret", "password", "_token", "cookie_hash", "cookie_encryption", "access_key_encryption"]

/-- Keys that tell of a secret as a whole: this one holds the password of a storage group. -/
def sensitiveKeys : List String := ["pass"]

/-- Keys of switches that only look as if they told of a secret. -/
def harmlessKeys : List String := ["password_login_disable"]

/-- Does a key, in any letter case, tell of a secret? -/
def isSensitiveKey (key : String) : Bool :=
  let lower := Text.lower key
  if harmlessKeys.any (·.toList = lower) then false
  else sensitiveKeys.any (·.toList = lower) || sensitiveTerms.any fun term => Text.occurs term.toList lower

namespace Json

mutual

/-- A value with all secrets in it replaced. -/
def redact : Json → Json
  | .arr items => .arr (redactItems items)
  | .obj members => .obj (redactMembers members)
  | v => v

def redactItems : List Json → List Json
  | [] => []
  | v :: rest => redact v :: redactItems rest

def redactMembers : List (String × Json) → List (String × Json)
  | [] => []
  | (k, v) :: rest => (k, if isSensitiveKey k then redacted else redact v) :: redactMembers rest

end

theorem redactItems_eq (items : List Json) : redactItems items = items.map redact := by
  induction items with
  | nil => rfl
  | cons v rest ih => rw [redactItems, ih, List.map_cons]

theorem redactMembers_eq (members : Dict Json) : redactMembers members =
    members.map fun m => (m.1, if isSensitiveKey m.1 then redacted else redact m.2) := by
  induction members with
  | nil => rfl
  | cons entry rest ih => rw [redactMembers, ih, List.map_cons]

end Json

end ServerSettings
