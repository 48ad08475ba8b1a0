import ServerSettings.Environment
import ServerSettings.Error
import ServerSettings.Settings.Basic
import ServerSettings.Tables
import ServerSettings.Text.FormEncoding

/-!
The storage backend: which one is selected, how it is reached, and the text that its driver takes.
-/

namespace ServerSettings

/-- How the selected backend is reached. -/
structure Connection where
  dialect : Dialect
  hostname : String := ""
  username : String := ""
  password : String := ""
  dbName : String := ""
  options : Dict String := []

namespace Backend

def effectiveHost (env : Environment) (db : Database) : String :=
  env.valueOr Tables.hostVariable (db.text .hostname)

/-- A storage group counts as filled in if it has a host. -/
def isPresent (env : Environment) (db : Database) : Bool :=
  effectiveHost env db ≠ ""

/-- The backend that the settings name, or the first whose group is filled in. -/
def select (env : Environment) (s : Settings) : Except Error Dialect :=
  if s.text .dialect ≠ "" then
    match Dialect.ofName? (s.text .dialect) with
    | some d => .ok d
    | none => .error (.backend (.unsupported (s.text .dialect)))
  else
    match Dialect.all.find? fun d => isPresent env (s.database d) with
    | some d => .ok d
    | none => .error (.backend .notFound)

/-- The connection of a backend: its group, with variables over it. -/
def connectionOf (env : Environment) (d : Dialect) (db : Database) : Connection where
  dialect := d
  hostname := env.valueOr Tables.hostVariable (db.text .hostname)
  username := env.valueOr Tables.userVariable (db.text .username)
  password := env.valueOr Tables.passwordVariable (db.text .password)
  dbName := env.valueOr Tables.databaseVariable (db.text .dbName)
  options := db.options

def connection (env : Environment) (s : Settings) : Except Error Connection := do
  let d ← select env s
  return connectionOf env d (s.database d)

/-- Options in their order as `?k=v&k=v`, nothing if there are none. -/
def queryString (options : Dict String) : String :=
  if options.isEmpty then ""
  else "?" ++ String.intercalate "&" (options.map fun p => p.1 ++ "=" ++ p.2)

/-- Options that the MySQL driver is given unless others are. -/
def mysqlOptions : Dict String :=
  [("parseTime", "true"), ("interpolateParams", "true")]

def mergedOptions (options : Dict String) : Dict String :=
  options.foldl (fun merged p => Dict.put merged p.1 p.2) mysqlOptions

end Backend

namespace Connection

open Backend

/-- The text that the driver of the backend takes. -/
def descriptor (c : Connection) (withDatabase : Bool) : String :=
  match c.dialect with
  | .bolt => c.hostname
  | .mysql =>
    c.username ++ ":" ++ c.password ++ "@tcp(" ++ c.hostname ++ ")/" ++
      (if withDatabase then c.dbName else "") ++ queryString (mergedOptions c.options)
  | .postgres =>
    "postgres://" ++ c.username ++ ":" ++ FormEncoding.encode c.password ++ "@" ++ c.hostname ++
      (if withDatabase then "/" ++ c.dbName else "") ++ queryString c.options

def displayName : Dialect → String
  | .mysql => "MySQL"
  | .bolt => "BoltDB"
  | .postgres => "Postgres"

/-- One line without the password. -/
def summary (c : Connection) : String :=
  match c.dialect with
  | .bolt => displayName .bolt ++ " " ++ c.hostname
  | d => displayName d ++ " " ++ c.username ++ "@" ++ c.hostname ++ " " ++ c.dbName

end Connection

end ServerSettings
