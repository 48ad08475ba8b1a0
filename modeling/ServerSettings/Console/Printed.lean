import ServerSettings.Console.Table
import ServerSettings.Environment
import ServerSettings.Json.Reader
import ServerSettings.Json.Writer

/-!
What a command prints. Colour is a property of the terminal only: it decides how JSON is laid out, and
no styles are ever written here.
-/

namespace ServerSettings.Console

/-- Is colour allowed? Not if it was declined, by a switch or by the environment, or the output is no
terminal. -/
def isColourAllowed (declined : Bool) (env : Environment) (isTerminal : Bool) : Bool :=
  !declined && (env.value? "NO_COLOR").isNone && isTerminal

/-- What has been printed, on either stream. -/
structure Printed where
  output : String := ""
  errors : String := ""

namespace Printed

def text (p : Printed) (s : String) : Printed :=
  { p with output := p.output ++ printText s }

/-- A name and a value on a line. -/
def pair (p : Printed) (key value : String) : Printed :=
  p.text (key ++ ": " ++ value)

/-- A heading with an empty line above. -/
def section' (p : Printed) (title : String) : Printed :=
  { p with output := p.output ++ "\n" ++ printText title }

def success (p : Printed) (label : String) : Printed :=
  p.text ("  OK  " ++ label)

def failure (p : Printed) (label : String) : Printed :=
  p.text ("  FAIL  " ++ label)

def error (p : Printed) (message : String) : Printed :=
  { p with errors := p.errors ++ printText message }

def table (p : Printed) (t : Table) : Except Markup.Fault Printed :=
  t.print.map fun shown => { p with output := p.output ++ shown }

def jsonLayout : Json.Layout := { step := some 2 }

/-- The text of a document laid out anew. -/
def layOut (document : String) : Except (String × String) String :=
  match Json.read document with
  | .error (.tooDeep container) =>
    .error ("RecursionError", Json.Fault.message document.toList (.tooDeep container))
  | .error (.tooManyDigits n) => .error ("ValueError", NumberFault.message (.tooManyDigits n))
  | .error fault => .error ("JSONDecodeError", fault.message document.toList)
  | .ok v =>
    match Json.text jsonLayout v with
    | .ok text => .ok text
    | .error fault => .error ("ValueError", fault.message)

/-- A JSON document; with colour it is laid out anew, which fails if it is none. -/
def json (p : Printed) (isColoured : Bool) (document : String) : Except (String × String) Printed :=
  if isColoured then (layOut document).map p.text else .ok (p.text document)

end Printed

end ServerSettings.Console
