import ServerSettings.Command.Word
import ServerSettings.Setup

/-!
From the words of a command line to what is asked for.
-/

namespace ServerSettings.Command

/-- How loaded settings are looked at. -/
inductive View where
  | document (redacted : Bool)
  | problems
  | summary
  | descriptor (withDatabase : Bool)
  deriving DecidableEq, Repr

/-- New settings, the file they go to, and whether they may take the place of what it holds. -/
structure Order where
  plan : SetupPlan
  output : String
  force : Bool

inductive Task where
  | inspect (view : View)
  | setup (order : Order)
  | listVariables

/-- What a command line asks for; `file` is that of the settings, unless they are to be looked for. -/
structure Request where
  task : Task
  file : Option String
  logLevel : String
  declinesColour : Bool

/-- Why a command line is no request. `lostValue` is a value that was taken for the separator. -/
inductive Reason where
  | help
  | misuse (fault : Fault)
  | lostValue
  deriving DecidableEq, Repr

/-- `command` is the one whose words were being read, if it had been found. -/
structure Stop where
  command : Option Name := none
  reason : Reason
  deriving DecidableEq, Repr

/-- Parameters with the values they are given, in order; a switch is given an empty one. -/
abbrev Given := List (Parameter × String)

namespace Given

def has (g : Given) (p : Parameter) : Bool :=
  g.any (·.1 = p)

/-- The last value that a parameter is given. -/
def value? (g : Given) (p : Parameter) : Option String :=
  (g.reverse.find? (·.1 = p)).map (·.2)

def valueOr (g : Given) (p : Parameter) (fallback : String) : String :=
  (g.value? p).getD fallback

end Given

/-- The value that a parameter takes from a word, if it is allowed. -/
def accept (p : Parameter) (word : String) : Except Reason String :=
  let value := p.taken word
  match p.choices? with
  | none => .ok value
  | some choices =>
    if value ∈ choices then .ok value else .error (.misuse (.notAllowed p.text value choices))

/-- Behind one dash every letter is a switch. -/
def letters (known : List Parameter) (p : Parameter) : List Char → Except Fault (List Parameter)
  | [] => .ok []
  | c :: rest =>
    match Dict.lookup (Word.spelled known) (String.ofList ['-', c]) with
    | some q => (letters known q rest).map (q :: ·)
    | none => .error (.unwantedValue p (String.ofList (c :: rest)))

/-- What a value behind a switch comes to: more switches, or a fault. -/
def behindSwitch (known : List Parameter) (p : Parameter) (spelling value : String) :
    Except Fault (List Parameter) :=
  if spelling.startsWith "--" ∨ value = "" then .error (.unwantedValue p value)
  else (letters known p value.toList).map (p :: ·)

/-- Switches that are given, unless help is among them. -/
def switchedOn (switches : List Parameter) : Except Reason Given :=
  if .help ∈ switches then .error .help else .ok (switches.map fun p => (p, ""))

/-- The value that the word of a parameter brings along. -/
def ownValue (known : List Parameter) (p : Parameter) (spelling value : String) : Except Reason Given :=
  if p.isSwitch then (behindSwitch known p spelling value).mapError .misuse >>= switchedOn
  else if value = "--" then .error .lostValue
  else (accept p value).map fun value => [(p, value)]

/-- What the words of a command give: parameters, and words that it has no use for. -/
structure Reading where
  given : Given := []
  unused : List String := []

namespace Reading

def give (g : Given) (r : Reading) : Reading := { r with given := g ++ r.given }

def skip (word : String) (r : Reading) : Reading := { r with unused := word :: r.unused }

/-- Reads the words of a command. A parameter without a value of its own takes the next word, if that
stands for itself. -/
def ofWords (known : List Parameter) : List Word → Except Reason Reading
  | [] => .ok {}
  | .plain word :: rest => (ofWords known rest).map (skip word)
  | .unknown word :: rest => (ofWords known rest).map (skip word)
  | .separator :: rest => (ofWords known rest).map (skip "--")
  | .parameter p spelling (some value) :: rest =>
    match ownValue known p spelling value with
    | .error reason => .error reason
    | .ok g => (ofWords known rest).map (give g)
  | .parameter p _ none :: rest =>
    if p.isSwitch then
      match switchedOn [p] with
      | .error reason => .error reason
      | .ok g => (ofWords known rest).map (give g)
    else
      match rest with
      | .plain word :: rest =>
        match accept p word with
        | .error reason => .error reason
        | .ok value => (ofWords known rest).map (give [(p, value)])
      | _ => .error (.misuse (.missingValue p))

end Reading

/-- The command of a line with the words behind it, and the words in front of it, which no command has a
use for. -/
structure Dispatch where
  command : Name
  words : List String
  unused : List String

namespace Dispatch

/-- Parameters that may stand in front of a command. -/
def known : List Parameter := [.help]

def notCommand (word : String) : Reason :=
  .misuse (.notAllowed "command" word (Name.all.map (·.text)))

/-- Finds the command: the first word that stands for itself. Each word comes with its text; a separator
that has words behind it is taken for the command. -/
def ofWords : List (Word × String) → Except Reason Dispatch
  | [] => .error (.misuse .noCommand)
  | (.plain word, _) :: rest =>
    match Name.ofText? word with
    | some command => .ok ⟨command, rest.map (·.2), []⟩
    | none => .error (notCommand word)
  | (.separator, text) :: rest =>
    .error (if rest.isEmpty then .misuse .noCommand else notCommand text)
  | (.parameter p spelling value, _) :: rest =>
    match value.elim (switchedOn [p]) (ownValue known p spelling) with
    | .error reason => .error reason
    | .ok _ => ofWords rest
  | (.unknown word, _) :: rest =>
    (ofWords rest).map fun d => { d with unused := word :: d.unused }

def ofTexts (line : List String) : Except Reason Dispatch := do
  let words ← (Word.ofTexts known line).mapError .misuse
  ofWords (words.zip line)

end Dispatch

def orderOf (g : Given) : Order where
  plan :=
    { dialect := (Dialect.ofName? (g.valueOr .dialect "")).getD .bolt
      values := [("hostname", .text (g.valueOr .host "")), ("username", .text (g.valueOr .user "")),
        ("password", .text (g.valueOr .password "")), ("db_name", .text (g.valueOr .database ""))]
      port := g.valueOr .port ""
      webHost := g.valueOr .webHost "" }
  output := g.valueOr .output Tables.fileName
  force := g.has .force

def taskOf (command : Name) (g : Given) : Task :=
  match command with
  | .display => .inspect (.document (g.has .redact))
  | .validate => .inspect .problems
  | .describe => .inspect .summary
  | .connect => .inspect (.descriptor (!g.has .noDatabase))
  | .setup => .setup (orderOf g)
  | .listVariables => .listVariables

def defaultLogLevel : String := "WARNING"

namespace Request

def ofGiven (command : Name) (g : Given) : Request where
  task := taskOf command g
  file := g.value? .file
  logLevel := g.valueOr .logLevel defaultLogLevel
  declinesColour := g.has .noColour

/-- Reads the words behind a command. -/
def readCommand (command : Name) (words : List String) : Except Reason Reading := do
  let words ← (Word.ofTexts command.parameters words).mapError .misuse
  Reading.ofWords command.parameters words

/-- Reads a command line. Words without a use are refused only when all else has been read. -/
def read (line : List String) : Except Stop Request := do
  let d ← (Dispatch.ofTexts line).mapError fun reason => { reason }
  let r ← (readCommand d.command d.words).mapError fun reason => { command := some d.command, reason }
  match d.unused ++ r.unused with
  | [] => return ofGiven d.command r.given
  | unused => .error { reason := .misuse (.unrecognized unused) }

end Request

/-- The program's name, by which it reports. -/
def program : String := "semaphore-config"

/-- How a fault is reported: under the name of the command, if that had been found. -/
def Fault.report (command : Option Name) (fault : Fault) : String :=
  program ++ (command.elim "" fun c => " " ++ c.text) ++ ": error: " ++ fault.message

end ServerSettings.Command
