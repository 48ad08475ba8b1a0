import ServerSettings.Json.Writer
import ServerSettings.Log.Level
import ServerSettings.Log.Normal
import ServerSettings.Log.Timestamp
import ServerSettings.Template

/-!
Log records and the line that each becomes: one JSON object, its members in the order of their names,
with secrets redacted.
-/

namespace ServerSettings.Log

/-- `failure` is the text of a failure that the record reports, and `failureText` one that was prepared
before. No arguments mean that the message is no template. -/
structure Record where
  logger : String
  level : Int
  levelName : String := Log.levelName level
  created : Binary64 := .zero
  message : Value := .text ""
  arguments : Arguments := .row []
  extra : Dict Value := []
  failure : Option String := none
  failureText : String := ""

inductive Fault where
  | template (fault : Template.Fault)
  | number (fault : NumberFault)
  | time (fault : Timestamp.Fault)

namespace Fault

def message : Fault → String
  | .template fault => fault.message
  | .number fault => fault.message
  | .time fault => fault.message

/-- The name of the class of failures that a fault belongs to. -/
def title : Fault → String
  | .template fault => fault.title
  | .number _ => "ValueError"
  | .time fault => fault.title

end Fault

/-- What is done to values before they are written. -/
abbrev Redactor := Json → Json

/-- Names that every record has; extra fields under them are not written. -/
def standardFields : List String :=
  ["args", "asctime", "created", "exc_info", "exc_text", "filename", "funcName", "levelname", "levelno",
   "lineno", "message", "module", "msecs", "msg", "name", "pathname", "process", "processName",
   "relativeCreated", "stack_info", "thread", "threadName", "taskName"]

/-- Fields under standard names, and those that begin with an underscore, are for the program itself. -/
def isWritten (name : String) : Bool :=
  name ∉ standardFields && name.toList.head? ≠ some '_'

def layout : Json.Layout := { sorted := true }

/-- The arguments of a call; a map that is the only one is taken by its names. -/
def callArguments : List Value → Arguments
  | [.map (entry :: entries)] => .named (entry :: entries)
  | values => .row values

namespace Record

/-- Are there arguments to fill in? -/
def hasArguments (r : Record) : Bool :=
  match r.arguments with
  | .row values => !values.isEmpty
  | .named entries => !entries.isEmpty

/-- The message with its arguments filled in. -/
def text (r : Record) : Except Fault String := do
  let template ← r.message.plain.mapError .number
  if r.hasArguments then (Template.fill template r.arguments).mapError .template
  else return template

def extraFields : Dict Value → Except NumberFault (Dict Json)
  | [] => .ok []
  | (name, v) :: rest =>
    if isWritten name then
      match v.normal with
      | .error e => .error e
      | .ok value => (extraFields rest).map ((name, value) :: ·)
    else extraFields rest

/-- The text of a redacted message: a text as it is, nothing for null, and JSON for anything else. -/
def messageText : Json → Except NumberFault String
  | .str s => .ok s
  | .null => .ok ""
  | v => Json.text layout v

/-- What the record reports of a failure. -/
def failureShown (r : Record) : Option String :=
  r.failure.or (if r.failureText = "" then none else some r.failureText)

/-- The object that is written. Its fields are put into normal form each by itself and then together. -/
def event (redact : Redactor) (r : Record) : Except Fault Json := do
  let stamp ← (Timestamp.text r.created).mapError .time
  let text ← r.text
  let message ← (messageText (redact (.str text))).mapError .number
  let fields ← (extraFields r.extra).mapError .number
  let together ← (Value.ofJson (.obj fields)).normal.mapError .number
  return .obj
    ([("timestamp", .str stamp), ("level", .str r.levelName), ("logger", .str r.logger),
      ("message", .str message)] ++
     (if fields.isEmpty then [] else [("fields", redact together)]) ++
     (r.failureShown.map fun shown => ("exception", Json.str shown)).toList)

/-- The line of a record, without its end. -/
def format (redact : Redactor) (r : Record) : Except Fault String := do
  let event ← r.event redact
  (Json.text layout event).mapError .number

/-- A record that can wait in a queue: the message is filled in and the failure is text. -/
def prepare (r : Record) : Except Fault Record := do
  let text ← r.text
  return { r with
    message := .text text
    arguments := .row []
    failure := none
    failureText := if r.failureText = "" then r.failure.getD "" else r.failureText }

end Record

end ServerSettings.Log
