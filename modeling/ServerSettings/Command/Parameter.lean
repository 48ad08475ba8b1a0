import ServerSettings.Settings.Field
import ServerSettings.Text.LetterCase

/-!
What may stand on a command line: the commands, the parameters of each, and how these are spelled.
-/

namespace ServerSettings.Command

/-- The first four are about settings that exist, `setup` makes new ones, and `listVariables` needs
none. -/
inductive Name where
  | display
  | validate
  | describe
  | connect
  | setup
  | listVariables
  deriving DecidableEq, Repr

namespace Name

def all : List Name := [.display, .validate, .describe, .connect, .setup, .listVariables]

def text : Name → String
  | .display => "show"
  | .validate => "validate"
  | .describe => "db-info"
  | .connect => "dsn"
  | .setup => "setup"
  | .listVariables => "env"

/-- The command of exactly this name. -/
def ofText? (s : String) : Option Name :=
  all.find? (·.text = s)

theorem ofText?_text (n : Name) : ofText? n.text = some n := by
  cases n <;> rfl

end Name

inductive Parameter where
  | help
  | file
  | logLevel
  | noColour
  | redact
  | noDatabase
  | output
  | dialect
  | host
  | user
  | password
  | database
  | port
  | webHost
  | force
  deriving DecidableEq, Repr

namespace Parameter

/-- Only help has a short spelling. -/
def spellings : Parameter → List String
  | .help => ["-h", "--help"]
  | .file => ["--config"]
  | .logLevel => ["--log-level"]
  | .noColour => ["--no-color"]
  | .redact => ["--redact"]
  | .noDatabase => ["--no-db-name"]
  | .output => ["--output"]
  | .dialect => ["--dialect"]
  | .host => ["--db-host"]
  | .user => ["--db-user"]
  | .password => ["--db-pass"]
  | .database => ["--db-name"]
  | .port => ["--port"]
  | .webHost => ["--web-host"]
  | .force => ["--force"]

/-- How messages name a parameter. -/
def text (p : Parameter) : String :=
  String.intercalate "/" p.spellings

/-- Is the parameter a switch, which is given without a value? -/
def isSwitch : Parameter → Bool
  | .help | .noColour | .redact | .noDatabase | .force => true
  | _ => false

def logLevels : List String := ["DEBUG", "INFO", "WARNING", "ERROR", "CRITICAL"]

/-- The values that are allowed, if not all are. -/
def choices? : Parameter → Option (List String)
  | .logLevel => some logLevels
  | .dialect => some (Dialect.all.map (·.name))
  | _ => none

/-- What is taken for a value that is given: levels may be given in any letter case. -/
def taken : Parameter → String → String
  | .logLevel, s => Text.upper s
  | _, s => s

/-- Parameters that every command has. -/
def shared : List Parameter := [.help, .file, .logLevel, .noColour]

end Parameter

/-- The parameters of a command, in the order in which messages list them. -/
def Name.parameters (n : Name) : List Parameter :=
  Parameter.shared ++
    match n with
    | .display => [.redact]
    | .connect => [.noDatabase]
    | .setup =>
      [.output, .dialect, .host, .user, .password, .database, .port, .webHost, .force]
    | _ => []

end ServerSettings.Command
