import ServerSettings.Decimal.Shortest
import ServerSettings.Decimal.Whole
import ServerSettings.Json.Basic
import ServerSettings.Text.Split

/-!
Writing JSON text: on one line without blanks, or with one member or element a line. Characters beyond
ASCII stand as they are.
-/

namespace ServerSettings.Json

/-- A character between quotes. Quotes, backslashes and controls are escaped, the usual controls by a
letter. -/
def writeChar (c : Char) : List Char :=
  if c = '"' then ['\\', '"']
  else if c = '\\' then ['\\', '\\']
  else if c = '\n' then ['\\', 'n']
  else if c = '\r' then ['\\', 'r']
  else if c = '\t' then ['\\', 't']
  else if c = '\x08' then ['\\', 'b']
  else if c = '\x0c' then ['\\', 'f']
  else if c.toNat < 0x20 then '\\' :: 'u' :: Text.hex 4 c.toNat
  else [c]

def writeString (s : String) : List Char :=
  '"' :: s.toList.flatMap writeChar ++ ['"']

def writeFloat : Binary64 → List Char
  | .nan => "NaN".toList
  | .infinite negative => if negative then "-Infinity".toList else "Infinity".toList
  | x => x.text.toList

/-- How a text is laid out. `step` is the number of blanks that each level of nesting adds, if every
member and element has a line of its own. -/
structure Layout where
  step : Option Nat := none
  sorted : Bool := false

/-- Members by name in the order of code points. -/
def sortMembers {α : Type} (members : List (String × α)) : List (String × α) :=
  members.mergeSort fun a b => a.1 ≤ b.1

def Layout.arrange {α : Type} (l : Layout) (members : List (String × α)) : List (String × α) :=
  if l.sorted then sortMembers members else members

theorem mem_arrange {α : Type} {l : Layout} {members : List (String × α)} {entry : String × α}
    (h : entry ∈ l.arrange members) : entry ∈ members := by
  rw [Layout.arrange] at h
  split at h
  · exact List.mem_mergeSort.mp h
  · exact h

/-- What stands in front of the first part, and of the last bracket, at a level of nesting. -/
def Layout.lineBreak (l : Layout) (level : Nat) : List Char :=
  match l.step with
  | none => []
  | some n => '\n' :: List.replicate (n * level) ' '

def Layout.colon (l : Layout) : List Char :=
  if l.step.isSome then [':', ' '] else [':']

/-- Parts between brackets with commas between them. -/
def Layout.enclose (l : Layout) (level : Nat) (opening closing : Char) (parts : List (List Char)) : List Char :=
  match parts with
  | [] => [opening, closing]
  | parts =>
    opening :: l.lineBreak (level + 1) ++ (',' :: l.lineBreak (level + 1)).intercalate parts ++
      l.lineBreak level ++ [closing]

mutual

def write (l : Layout) (level : Nat) : Json → List Char
  | .null => "null".toList
  | .bool b => if b then "true".toList else "false".toList
  | .int n => Whole.digits n
  | .float x => writeFloat x
  | .str s => writeString s
  | .arr items => l.enclose level '[' ']' (writeItems l (level + 1) items)
  | .obj members =>
    l.enclose level '{' '}'
      ((l.arrange (writeMembers l (level + 1) members)).map fun p => p.2)

def writeItems (l : Layout) (level : Nat) : List Json → List (List Char)
  | [] => []
  | v :: rest => write l level v :: writeItems l level rest

def writeMembers (l : Layout) (level : Nat) : List (String × Json) → List (String × List Char)
  | [] => []
  | (k, v) :: rest => (k, writeString k ++ l.colon ++ write l level v) :: writeMembers l level rest

end

theorem writeItems_eq (l : Layout) (level : Nat) (items : List Json) :
    writeItems l level items = items.map (write l level) := by
  induction items with
  | nil => rfl
  | cons v rest ih => rw [writeItems, ih, List.map_cons]

theorem writeMembers_eq (l : Layout) (level : Nat) (members : Dict Json) : writeMembers l level members =
    members.map fun m => (m.1, writeString m.1 ++ l.colon ++ write l level m.2) := by
  induction members with
  | nil => rfl
  | cons entry rest ih => rw [writeMembers, ih, List.map_cons]

mutual

/-- Are all whole numbers in a value short enough to be written? -/
def isWritable : Json → Bool
  | .int n => Whole.isWritable n
  | .arr items => areWritable items
  | .obj members => membersAreWritable members
  | _ => true

def areWritable : List Json → Bool
  | [] => true
  | v :: rest => isWritable v && areWritable rest

def membersAreWritable : List (String × Json) → Bool
  | [] => true
  | (_, v) :: rest => isWritable v && membersAreWritable rest

end

/-- The text of a value. -/
def text (l : Layout) (v : Json) : Except NumberFault String :=
  if isWritable v then .ok (String.ofList (write l 0 v)) else .error .tooLarge

end ServerSettings.Json
