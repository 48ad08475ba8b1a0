import ServerSettings.Resolution.Validation
import ServerSettings.Url

/-!
What a server takes from its settings when it starts.
-/

namespace ServerSettings

structure Startup where
  hashKey : List UInt8
  blockKey : Option (List UInt8)
  webUrl : Option Url
  listenAddress : String
  accessKey : Option (List UInt8)

namespace Startup

def badKey (f : TextSetting) : Error :=
  .validation [(Problem.notBase64 f.name).message]

/-- The key that signs cookies; there must be one. -/
def hashKey? (s : Settings) : Except Error (List UInt8) :=
  match decodeKey? (s.text .cookieHash) with
  | some (b :: key) => .ok (b :: key)
  | _ => .error (badKey .cookieHash)

/-- The key that encrypts cookies, if one is set. -/
def blockKey? (s : Settings) : Except Error (Option (List UInt8)) :=
  if s.text .cookieEncryption = "" then .ok none
  else
    match decodeKey? (s.text .cookieEncryption) with
    | some key => .ok (some key)
    | none => .error (badKey .cookieEncryption)

/-- The address under which the server is known, if one is set. -/
def webUrl? (s : Settings) : Except Error (Option Url) :=
  if s.text .webHost = "" then .ok none
  else
    match Url.parse (s.text .webHost) with
    | .ok url => .ok (some url)
    | .error fault => .error (.url fault.message)

def accessKey? (s : Settings) : Option (List UInt8) :=
  if s.text .accessKeyEncryption = "" then none else decodeKey? (s.text .accessKeyEncryption)

def build (s : Settings) : Except Error Startup := do
  let hashKey ← hashKey? s
  let blockKey ← blockKey? s
  let webUrl ← webUrl? s
  return { hashKey, blockKey, webUrl
           listenAddress := s.text .interface ++ s.text .port
           accessKey := accessKey? s }

end Startup

end ServerSettings
