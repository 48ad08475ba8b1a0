import ServerSettings.Files.Host
import ServerSettings.Log.Handle

/-!
Loggers by name, and the handles that were set up for them. At most one handle is live at a time: setting
one up ends the one before.
-/

namespace ServerSettings.Log

/-- What is attached to a logger: the queue of a handle, or something that ignores every record. -/
inductive Attachment where
  | queueOf (handle : Nat)
  | idle
  deriving DecidableEq, Repr

/-- A level of zero means that of the logger above. -/
structure Logger where
  level : Int := 0
  propagates : Bool := true
  attachments : List Attachment := []

structure Registry where
  loggers : Dict Logger := [("root", { level := warning })]
  handles : List Handle := []
  active : Option Nat := none
  unhandled : List String := []

inductive Error where
  | level (name : String)
  | queueSize
  | overwritten (field : String)
  | queueFull
  | system (e : ServerSettings.Error)

namespace Error

def message : Error → String
  | .level name => "unsupported logging level " ++ Text.quoted name
  | .queueSize => "queue_size must be > 0"
  | .overwritten field => Text.quoted ("Attempt to overwrite " ++ Text.quoted field ++ " in LogRecord")
  | .queueFull => ""
  | .system e => e.message

/-- The name of the class of failures that an error belongs to. -/
def title : Error → String
  | .level _ | .queueSize => "ValueError"
  | .overwritten _ => "KeyError"
  | .queueFull => "Full"
  | .system e => e.title

end Error

/-- A setup that is asked for. -/
structure Plan where
  logger : String
  level : LevelChoice := .name "INFO"
  queueSize : Int := 4096
  stream : Option Sink := some .stream
  file : Option String := none
  redact : Redactor := Json.redact

def Plan.levelNumber (plan : Plan) : Except Error Int :=
  match plan.level with
  | .number n => .ok n
  | .name s =>
    match levelOfName? s with
    | some n => .ok n
    | none => .error (.level s)

def rootName : String := "root"

/-- The root goes by its own name and by the empty one. -/
def canonicalName (name : String) : String :=
  if name = "" then rootName else name

namespace Registry

def logger (g : Registry) (name : String) : Logger :=
  (Dict.lookup g.loggers (canonicalName name)).getD {}

def withLogger (g : Registry) (name : String) (l : Logger) : Registry :=
  { g with loggers := Dict.put g.loggers (canonicalName name) l }

def changeHandle (g : Registry) (i : Nat) (f : Handle → Handle) : Registry :=
  match g.handles[i]? with
  | some h => { g with handles := g.handles.set i (f h) }
  | none => g

/-- Takes the queue of a handle off its logger. -/
def detach (g : Registry) (i : Nat) : Registry :=
  match g.handles[i]? with
  | some h =>
    let l := g.logger h.logger
    g.withLogger h.logger { l with attachments := l.attachments.erase (.queueOf i) }
  | none => g

/-- Ends a handle: it writes what waits and is attached to no logger any more. -/
def close (g : Registry) (i : Nat) : Registry :=
  match g.handles[i]? with
  | some h => if h.isShutdown then g else (g.changeHandle i Handle.shutdown).detach i
  | none => g

/-- Ends the live handle, if there is one. -/
def retire (g : Registry) : Registry :=
  match g.active with
  | some i => { g.close i with active := none }
  | none => g

/-- Ends a handle, or the active one. -/
def shutdown (g : Registry) (handle : Option Nat) : Registry :=
  match handle.or g.active with
  | none => g
  | some i =>
    let g := g.close i
    if g.active = some i then { g with active := none } else g

/-- Puts a new handle in place of whatever is attached to its logger. -/
def install (g : Registry) (plan : Plan) (level : Int) (sinks : List Sink) : Registry :=
  let i := g.handles.length
  let h : Handle :=
    { logger := plan.logger, level, capacity := plan.queueSize.toNat, redact := plan.redact
      outputs := sinks.map fun sink => { sink, level } }
  let l : Logger := { level, propagates := false, attachments := [.queueOf i] }
  { g.withLogger plan.logger l with handles := g.handles ++ [h], active := some i }

/-- Attaches something that ignores every record. -/
def attach (g : Registry) (name : String) : Registry :=
  let l := g.logger name
  g.withLogger name { l with attachments := l.attachments ++ [.idle] }

def isKnown (g : Registry) (name : String) : Bool :=
  name ≠ rootName && (Dict.lookup g.loggers name).isSome

/-- The known loggers above a dotted name, the nearest first; the name is given from its end. It is cut in front of a
dot. Where no logger goes by what is left, a dot at its end is passed over. -/
def above (g : Registry) (pass : Bool) : List Char → List String
  | [] => []
  | c :: before =>
    if c = '.' ∧ pass = false ∧ before ≠ [] then
      let name := String.ofList before.reverse
      if g.isKnown name then name :: g.above false before else g.above true before
    else g.above false before

/-- A logger's name and the names of those above it, the root last. -/
def chain (g : Registry) (name : String) : List String :=
  if canonicalName name = rootName then [rootName]
  else name :: (g.above false name.toList.reverse ++ [rootName])

/-- The level of the nearest logger that has one. -/
def effectiveLevel (g : Registry) (name : String) : Int :=
  (((g.chain name).map fun n => (g.logger n).level).find? (· ≠ 0)).getD 0

/-- Levels up to zero are never logged. -/
def isEnabled (g : Registry) (name : String) (level : Int) : Bool :=
  0 < level && g.effectiveLevel name ≤ level

/-- What is attached to loggers from a name upwards, as far as records go. -/
def reached (g : Registry) : List String → List Attachment
  | [] => []
  | name :: rest =>
    let l := g.logger name
    l.attachments ++ (if l.propagates then reached g rest else [])

def deliver (g : Registry) (r : Record) : Attachment → Registry
  | .queueOf i => g.changeHandle i (·.offer r)
  | .idle => g

/-- Fields that a record has before any others are added. -/
def ownFields : List String :=
  ["name", "msg", "args", "levelname", "levelno", "pathname", "filename", "module", "exc_info",
   "exc_text", "stack_info", "lineno", "funcName", "created", "msecs", "relativeCreated", "thread",
   "threadName", "processName", "process"]

/-- The first extra field that would hide one of the record's own. -/
def overwritten? (extra : Dict Value) : Option String :=
  (Dict.keys extra).find? fun name => name = "message" || name = "asctime" || name ∈ ownFields

/-- A warning that nothing handles is shown by its message alone. -/
def showUnhandled (g : Registry) (r : Record) : Registry :=
  if r.level < warning then g
  else
    match r.text with
    | .ok text => { g with unhandled := g.unhandled ++ [text] }
    | .error _ => g

/-- Makes a logger known. -/
def meet (g : Registry) (name : String) : Registry :=
  match Dict.lookup g.loggers (canonicalName name) with
  | some _ => g
  | none => g.withLogger name {}

/-- Logs a record to whatever is attached to its logger and to those above. -/
def log (g : Registry) (r : Record) : Except Error Registry :=
  let g := g.meet r.logger
  if !g.isEnabled r.logger r.level then .ok g
  else
    match overwritten? r.extra with
    | some field => .error (.overwritten field)
    | none =>
      let targets := g.reached (g.chain r.logger)
      .ok (if targets.isEmpty then g.showUnhandled r else targets.foldl (·.deliver r) g)

end Registry

variable {m : Type → Type} [Monad m] [Host m]

/-- Makes the file that lines are appended to, and the directories above it. -/
def openFile (file : Option String) : m (Except ServerSettings.Error (List Sink)) := do
  match file with
  | none => return .ok []
  | some file =>
    let name := PathName.ofText file
    match ← Host.ensureDirectory name.parent with
    | .error e => return .error e
    | .ok () =>
      match ← Host.appendText name "" with
      | .error e => return .error e
      | .ok place => return .ok [.file place]

/-- Sets up a handle. The one before is ended whether this succeeds or not. -/
def Registry.setup (g : Registry) (plan : Plan) : m (Except Error Int × Registry) := do
  let g := g.retire
  match plan.levelNumber with
  | .error e => return (.error e, g)
  | .ok level =>
    if plan.queueSize ≤ 0 then return (.error .queueSize, g)
    match ← openFile plan.file with
    | .error e => return (.error (.system e), g)
    | .ok files => return (.ok level, g.install plan level (files ++ plan.stream.toList))

end ServerSettings.Log
