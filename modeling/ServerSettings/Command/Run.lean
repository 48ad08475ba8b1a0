import ServerSettings.Command.Manual
import ServerSettings.Command.Report
import ServerSettings.Log.Journal

/-!
Running a command line on a machine: what it writes to either stream, and how it ends.
-/

namespace ServerSettings.Command

open Console

/-- Lines of the log come first, then what is printed, and the report of the ending last. -/
structure Transcript where
  log : List String := []
  printed : Printed := {}
  ending : Ending

/-- What a transcript leaves on the stream of errors, a crash apart. -/
def Transcript.errors (t : Transcript) : String :=
  String.join (t.log.map (· ++ "\n")) ++ t.printed.errors ++ t.ending.report

/-- The ending with an exit code. -/
def exit (code : ExitCode) : Ending :=
  Ending.ofReturned (.code code.number)

namespace Transcript

def ofReport (log : List String) : Report → Transcript
  | .ok (code, printed) => { log, printed, ending := exit code }
  | .error (.declined text) =>
    { log, printed := ({} : Printed).error ("error: " ++ text), ending := exit .configurationError }
  | .error (.settings e) => { log, ending := Ending.ofError e }
  | .error (.output crash) => { log, ending := { code := .internalError, crash := some crash } }

/-- A value that was lost fails as the list of one value that it should have been. -/
def lostValue : String := "ValueError: not enough values to unpack (expected 1, got 0)"

/-- The transcript of a command line that asks for nothing. -/
def ofStop (s : Stop) : Transcript :=
  match s.reason with
  | .help => { printed := { output := Manual.text s.command }, ending := exit .success }
  | .misuse fault =>
    { printed := { errors := fault.report s.command ++ "\n" }, ending := exit .configurationError }
  | .lostValue => { ending := { code := .internalError, crash := some lostValue } }

end Transcript

variable {m : Type → Type} [Monad m] [Host m]

/-- Writes new settings to a file, which is made with the directories above it. -/
def store (output : PathName) (s : Settings) : m (Except Error Unit) := do
  match s.render with
  | .error e => return .error e
  | .ok text =>
    match ← Host.ensureDirectory output.parent with
    | .error e => return .error e
    | .ok () => Host.writeText output (text ++ "\n")

namespace Order

/-- Is the file of an order not to be touched? -/
def isTaken (o : Order) (output : PathName) : m (Except Error Bool) := do
  match ← Host.present output with
  | .error e => return .error e
  | .ok present => return .ok (present && !o.force)

/-- Makes new settings and writes them. Nothing is written unless they are valid. -/
def fulfil (o : Order) : m Report := do
  match ← Host.expandHome (PathName.ofText o.output) with
  | .error e => return .error (.settings e)
  | .ok output =>
    match ← o.isTaken output with
    | .error e => return .error (.settings e)
    | .ok true =>
      return .error (.declined
        ("refusing to overwrite existing config file " ++ output.text ++ " (use --force)"))
    | .ok false =>
      match o.plan.build (← Host.random) with
      | .error e => return .error (.settings e)
      | .ok s =>
        match ← store output s with
        | .error e => return .error (.settings e)
        | .ok () => return .ok (.success, ({} : Printed).success ("wrote " ++ output.text))

end Order

/-- Loads settings and shows a view of them. -/
def inspect (r : Request) (view : View) (isTerminal : Bool) : m Transcript := do
  let env ← Host.environment
  let found ← ConfigFile.load r.file env none view.policy
  let log ← Log.Journal.lines r.logLevel found.notes
  let isColoured := isColourAllowed r.declinesColour env isTerminal
  return .ofReport log (found.result.mapError .settings >>= view.report env isColoured)

def Request.perform (r : Request) (isTerminal : Bool) : m Transcript := do
  match r.task with
  | .inspect view => inspect r view isTerminal
  | .setup order => return .ofReport [] (← order.fulfil)
  | .listVariables => return .ofReport [] (variableReport (← Host.environment))

/-- Runs a command line. -/
def run (line : List String) (isTerminal : Bool) : m Transcript :=
  match Request.read line with
  | .error stop => return .ofStop stop
  | .ok r => r.perform isTerminal

end ServerSettings.Command
