import ServerSettings.Command.Request

/-!
The text that a command line gets when it asks for help.
-/

namespace ServerSettings.Command

def Name.purpose : Name → String
  | .display => "Print the resolved configuration as JSON"
  | .validate => "Resolve the configuration and report every problem"
  | .describe => "Describe the active storage backend"
  | .connect => "Print the connection string of the active backend"
  | .setup => "Write a new config file with freshly generated secrets"
  | .listVariables => "List the environment variables that override settings"

def Parameter.purpose : Parameter → String
  | .help => "show this text and exit"
  | .file => "the JSON config file"
  | .logLevel => "level of the log that is written to stderr"
  | .noColour => "do not colour what is printed"
  | .redact => "replace secrets before printing"
  | .noDatabase => "leave the name of the database out"
  | .output => "the file to write"
  | .dialect => "the storage backend"
  | .host => "host name, or file path for bolt"
  | .user => "user name"
  | .password => "password"
  | .database => "name of the database"
  | .port => "port to listen on"
  | .webHost => "public root URL"
  | .force => "overwrite an existing config file"

namespace Manual

/-- Two columns, the first one blank-filled to a width. -/
def row (width : Nat) (left right : String) : String :=
  "  " ++ String.ofList (Text.padRight ' ' width left.toList) ++ "  " ++ right ++ "\n"

def parameterText (p : Parameter) : String :=
  String.intercalate ", " p.spellings ++
    (if p.isSwitch then "" else
      match p.choices? with
      | some choices => " " ++ String.intercalate "|" choices
      | none => " VALUE")

def rows (entries : List (String × String)) : String :=
  let width := (entries.map (·.1.length)).foldl max 0
  String.join (entries.map fun p => row width p.1 p.2)

def commandText (n : Name) : String :=
  "usage: " ++ program ++ " " ++ n.text ++ " [options]\n\n" ++ n.purpose ++ ".\n\noptions:\n" ++
    rows (n.parameters.map fun p => (parameterText p, p.purpose))

def overview : String :=
  "usage: " ++ program ++ " COMMAND [options]\n\n" ++
    "Resolve, validate and inspect the configuration of a server.\n\ncommands:\n" ++
    rows (Name.all.map fun n => (n.text, n.purpose))

/-- The help on a command, or on all of them. -/
def text : Option Name → String
  | some n => commandText n
  | none => overview

end Manual

end ServerSettings.Command
