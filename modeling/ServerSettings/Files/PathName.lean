import ServerSettings.Text.Split

/-!
Names of files in normal form: single slashes, no `.` parts. A `..` part is kept, as only the files
themselves can tell where it leads.
-/

namespace ServerSettings

/-- Where a name starts: in the working directory, or at the root. Two slashes in front are kept. -/
inductive PathStart where
  | here
  | root
  | doubleRoot
  deriving DecidableEq, Repr

structure PathName where
  start : PathStart := .here
  parts : List String := []
  deriving DecidableEq, Repr

namespace PathName

def PathStart.ofText (cs : List Char) : PathStart :=
  match (cs.takeWhile (· = '/')).length with
  | 0 => .here
  | 2 => .doubleRoot
  | _ => .root

def PathStart.text : PathStart → String
  | .here => ""
  | .root => "/"
  | .doubleRoot => "//"

/-- The parts of a text between its slashes. -/
def splitParts (cs : List Char) : List String :=
  ((Text.split '/' cs).map String.ofList).filter fun part => part ≠ "" ∧ part ≠ "."

def ofText (s : String) : PathName where
  start := PathStart.ofText s.toList
  parts := splitParts s.toList

def text (p : PathName) : String :=
  let text := PathStart.text p.start ++ String.intercalate "/" p.parts
  if text = "" then "." else text

/-- A name inside a directory; one that starts at the root stands for itself. -/
def join (directory name : PathName) : PathName :=
  if name.start = .here then { directory with parts := directory.parts ++ name.parts } else name

/-- The directory that a name is in; a name without parts is its own. -/
def parent (p : PathName) : PathName :=
  { p with parts := p.parts.dropLast }

def isHere (p : PathName) : Bool := p.start = .here

/-- Does the name hold the character that ends names in the system? -/
def hasNull (p : PathName) : Bool :=
  p.parts.any fun part => '\x00' ∈ part.toList

end PathName

end ServerSettings
