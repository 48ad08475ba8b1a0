import ServerSettings.Command.Run
import ServerSettings.Files.Account
import Std.Time.DateTime.Timestamp

/-!
The program: the machine that it runs on, and its exit code.
-/

namespace ServerSettings.Outer

/-- Failures are numbered from one on; some calls give the number with a minus in front. -/
def failureNumber (n : UInt32) : Nat :=
  if n.toNat < Nat.pow 2 31 then n.toNat else Nat.pow 2 32 - n.toNat

/-- The number and the text of a failure of the system. -/
def numberAndText : IO.Error → Nat × String
  | .alreadyExists _ n s | .invalidArgument _ n s | .permissionDenied _ n s | .resourceExhausted _ n s
  | .inappropriateType _ n s | .noSuchThing _ n s | .interrupted _ n s | .noFileOrDirectory _ n s
  | .otherError n s | .resourceBusy n s | .resourceVanished n s | .unsupportedOperation n s
  | .hardwareFault n s | .unsatisfiedConstraints n s | .illegalOperation n s | .protocolError n s
  | .timeExpired n s => (failureNumber n, s)
  | .unexpectedEof => (5, "Input/output error")
  | .userError s => (5, s)

def attempt {α : Type} (action : IO α) : IO (Except Refusal α) := do
  try
    return .ok (← action)
  catch e =>
    let (number, text) := numberAndText e
    return .error (Refusal.ofNumber number text)

/-- The variables that the program reads. -/
def variableNames : List String :=
  (["HOME", "NO_COLOR", Tables.fileVariable, Tables.hostVariable, Tables.userVariable,
    Tables.passwordVariable, Tables.databaseVariable] ++ Tables.overrides.map (·.2)).eraseDups

def readEnvironment : IO Environment :=
  variableNames.filterMapM fun name => do
    return (← IO.getEnv name).map fun value => (name, value)

def readStatus (p : PathName) : IO FileKind := do
  let place ← IO.FS.realPath p.text
  match (← place.metadata).type with
  | .dir => return .directory
  | .file => return .file
  | _ => return .other

/-- The home directory of a user, or of the one who runs the program. -/
def readHome (user : Option String) : IO (Option String) := do
  try
    let accounts := Account.ofText (← IO.FS.readFile "/etc/passwd")
    match user with
    | some name => return (accounts.find? (·.name = name)).map (·.home)
    | none =>
      let runner := Account.runner? (← IO.FS.readFile "/proc/self/status")
      return (accounts.find? (some ·.number = runner)).map (·.home)
  catch _ => return none

/-- Bytes enough for every key. -/
def readRandom : IO RandomSource := do
  let bytes ← IO.getRandomBytes (Tables.keys.length * Keys.keyLength).toUSize
  return fun call length => (bytes.toList.drop (call * length)).take length

def readClock : IO Binary64 := do
  let nanoseconds := (← Std.Time.Timestamp.now).toNanosecondsSinceUnixEpoch.val
  return .ofRatio (nanoseconds < 0) nanoseconds.natAbs 1000000000

def appendBytes (p : PathName) (content : List UInt8) : IO Unit := do
  let handle ← IO.FS.Handle.mk p.text .append
  handle.write (ByteArray.mk content.toArray)

instance : Host IO where
  environment := readEnvironment
  home := readHome
  workingDirectory := attempt do return PathName.ofText (← IO.currentDir).toString
  status := fun p => attempt (readStatus p)
  read := fun p => attempt do return (← IO.FS.readBinFile p.text).toList
  makeDirectory := fun p => attempt (IO.FS.createDir p.text)
  write := fun p content => attempt (IO.FS.writeBinFile p.text (ByteArray.mk content.toArray))
  append := fun p content => attempt (appendBytes p content)
  random := readRandom
  clock := readClock

end ServerSettings.Outer

open ServerSettings in
/-- Runs a command line; a crash is told of by its last line. -/
def main (line : List String) : IO UInt32 := do
  let output ← IO.getStdout
  let errors ← IO.getStderr
  let t ← (Command.run line (← output.isTty) : IO Command.Transcript)
  output.putStr t.printed.output
  errors.putStr t.errors
  if let some crash := t.ending.crash then errors.putStrLn crash
  return t.ending.code.number.toUInt32
