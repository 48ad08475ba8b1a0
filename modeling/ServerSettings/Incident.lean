import ServerSettings.Error
import ServerSettings.Text.Blank

/-!
The boundary of the process: which exit code a run ends with, and what is reported when it ends by a
failure. Failures are linked, as one may be caused by another or happen while another is handled; the
links may form a circle.
-/

namespace ServerSettings

inductive ExitCode where
  | success
  | validationFailed
  | configurationError
  | internalError
  deriving DecidableEq, Repr

namespace ExitCode

def all : List ExitCode := [.success, .validationFailed, .configurationError, .internalError]

def number : ExitCode → Nat
  | .success => 0
  | .validationFailed => 1
  | .configurationError => 2
  | .internalError => 3

def ofNumber? (n : Int) : Option ExitCode :=
  all.find? fun code => (code.number : Int) = n

end ExitCode

/-- A failure with its links to others by their place in a list. A context counts only if it is not
suppressed. -/
structure Incident where
  isConfiguration : Bool := false
  title : String
  text : String
  cause : Option Nat := none
  context : Option Nat := none
  isSuppressed : Bool := false

namespace Incident

/-- The name under which a crash names a class of configuration failures. -/
def errorSpace : String := "semaphore_config.config.errors."

def qualifiedTitle (e : Error) : String :=
  match e with
  | .address _ _ => errorSpace ++ e.title
  | .frozen _ => "dataclasses." ++ e.title
  | e => if e.isConfiguration then errorSpace ++ e.title else e.title

def ofError (e : Error) : Incident where
  isConfiguration := e.isConfiguration
  title := e.title
  text := e.message

/-- How a crash names a failure. -/
def line (title text : String) : String :=
  if text = "" then title else title ++ ": " ++ text

/-- The failure that led to this one: its cause, or else the one that was being handled. -/
def next (i : Incident) : Option Nat :=
  match i.cause with
  | some cause => some cause
  | none => if i.isSuppressed then none else i.context

/-- The failures from a place on, each led to by the next, up to one that has been seen. -/
def chainFrom (all : List Incident) : (fuel : Nat) → (seen : List Nat) → Nat → List Nat
  | 0, _, _ => []
  | fuel + 1, seen, place =>
    if place ∈ seen then []
    else
      match all[place]? with
      | none => []
      | some i =>
        match i.next with
        | some next => place :: chainFrom all fuel (place :: seen) next
        | none => [place]

/-- No failure is in a chain twice, so their number is steps enough. -/
def chain (all : List Incident) (place : Nat) : List Nat :=
  chainFrom all (all.length + 1) [] place

def isConfigurationAt (all : List Incident) (place : Nat) : Bool :=
  all[place]?.any (·.isConfiguration)

/-- A failure is the operator's to mend if any in its chain is. -/
def route (all : List Incident) (place : Nat) : ExitCode :=
  if (chain all place).any (isConfigurationAt all) then .configurationError else .internalError

/-- What is shown of a failure that the operator can mend. -/
def notice (i : Incident) : String :=
  let text := Text.strip i.text
  if text = "" then i.title else text

end Incident

/-- What a run hands back, or what it asks to exit with. -/
inductive Returned where
  | nothing
  | code (n : Int)
  | text (s : String)
  | other

/-- How a run ends: its exit code, what it reports, and the failure that it crashed with. -/
structure Ending where
  code : ExitCode
  report : String := ""
  crash : Option String := none

namespace Ending

/-- A report ends its last line once. -/
def reportLine (text : String) : String :=
  Text.stripNewlines text ++ "\n"

def ofReturned : Returned → Ending
  | .nothing => { code := .success }
  | .code n => { code := (ExitCode.ofNumber? n).getD .internalError }
  | .text s =>
    let shown := Text.strip s
    { code := .internalError, report := if shown = "" then "" else reportLine shown }
  | .other => { code := .internalError }

/-- The ending by a failure; `crash` is how a crash names it. -/
def ofFailure (all : List Incident) (place : Nat) (crash : String) : Ending :=
  match Incident.route all place with
  | .internalError => { code := .internalError, crash := some crash }
  | code => { code, report := reportLine (all[place]?.elim "" (·.notice)) }

/-- The ending by a failure that is linked to no other. -/
def ofError (e : Error) : Ending :=
  ofFailure [.ofError e] 0 (Incident.line (Incident.qualifiedTitle e) e.message)

end Ending

end ServerSettings
