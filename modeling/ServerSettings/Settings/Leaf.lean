import ServerSettings.Error
import ServerSettings.Settings.Basic
import ServerSettings.Text.Split

/-!
Leaves: the settings that hold a single value, and the dotted paths that lead to them.
-/

namespace ServerSettings

/-- What a leaf holds. -/
inductive Kind where
  | text
  | whole
  | flag
  deriving DecidableEq, Repr

namespace Kind

abbrev Content : Kind → Type
  | .text => String
  | .whole => Int
  | .flag => Bool

def name : Kind → String
  | .text => "str"
  | .whole => "int"
  | .flag => "bool"

def ofName? (s : String) : Option Kind :=
  [Kind.text, .whole, .flag].find? (·.name = s)

/-- The text of a content. -/
def render : (k : Kind) → k.Content → Except NumberFault String
  | .text, s => .ok s
  | .whole, n => Whole.text n
  | .flag, b => .ok (if b then "true" else "false")

end Kind

inductive Leaf where
  | database (d : Dialect) (f : DatabaseField)
  | mapping (f : MappingField)
  | text (f : TextSetting)
  | flag (f : FlagSetting)
  | maxParallelTasks
  deriving DecidableEq, Repr

/-- The leaves below a member of the root; the providers have none, as their names are not declared. -/
def Settings.Member.leaves : Settings.Member → List Leaf
  | .database d => DatabaseField.all.map (.database d)
  | .text f => [.text f]
  | .flag f => [.flag f]
  | .mappings => MappingField.all.map .mapping
  | .providers => []
  | .maxParallelTasks => [.maxParallelTasks]

namespace Leaf

/-- All leaves in the order of declaration. -/
def all : List Leaf :=
  Settings.Member.all.flatMap (·.leaves)

theorem mem_all (l : Leaf) : l ∈ all := by
  have at' (m : Settings.Member) (h : l ∈ m.leaves) : l ∈ all :=
    List.mem_flatMap.2 ⟨m, m.mem_all, h⟩
  cases l with
  | database d f => exact at' (.database d) (List.mem_map.2 ⟨f, f.mem_all, rfl⟩)
  | mapping f => exact at' .mappings (List.mem_map.2 ⟨f, f.mem_all, rfl⟩)
  | text f => exact at' (.text f) (by simp [Settings.Member.leaves])
  | flag f => exact at' (.flag f) (by simp [Settings.Member.leaves])
  | maxParallelTasks => exact at' .maxParallelTasks (by simp [Settings.Member.leaves])

def kind : Leaf → Kind
  | .flag _ => .flag
  | .maxParallelTasks => .whole
  | _ => .text

/-- The name of the field itself. -/
def field : Leaf → String
  | .database _ f => f.name
  | .mapping f => f.name
  | .text f => f.name
  | .flag f => f.name
  | .maxParallelTasks => "max_parallel_tasks"

/-- The names that lead to a leaf. -/
def segments : Leaf → List String
  | .database d f => [d.name, f.name]
  | .mapping f => [Settings.Member.mappings.name, f.name]
  | l => [l.field]

def joinSegments (segments : List String) : String :=
  String.intercalate "." segments

def path (l : Leaf) : String :=
  joinSegments l.segments

/-- The leaf with exactly this path. -/
def ofPath? (path : String) : Option Leaf :=
  all.find? (·.path = path)

theorem path_of_ofPath? {path : String} {l : Leaf} (h : ofPath? path = some l) : l.path = path := by
  simpa using List.find?_some h

/-- What stands where some names lead. -/
inductive Place where
  | group
  | collection
  | leaf
  deriving DecidableEq, Repr

def groups : List (List String) :=
  Dialect.all.map (fun d => [d.name]) ++ [[Settings.Member.mappings.name]]

def collections : List (List String) :=
  Dialect.all.map (fun d => [d.name, "options"]) ++ [[Settings.Member.providers.name]]

def place? (segments : List String) : Option Place :=
  if segments ∈ groups then some .group
  else if segments ∈ collections then some .collection
  else if segments ∈ all.map Leaf.segments then some .leaf
  else none

/-- Why names that follow those already walked lead to no leaf: the first that is no field, that goes on
below something without fields, or the last that stops at a group or collection. -/
def diagnose (walked : List String) : List String → PathReason
  | [] => .unresolvable
  | segment :: rest =>
    let stem := walked ++ [segment]
    match place? stem with
    | some .group => if rest.isEmpty then .group else diagnose stem rest
    | some _ => if rest.isEmpty then .collection else .notGroup (joinSegments stem)
    | none => .noField segment

def splitPath (path : String) : List String :=
  (Text.split '.' path.toList).map String.ofList

/-- The leaf at a path. -/
def ofPath (path : String) : Except Error Leaf :=
  match ofPath? path with
  | some l => .ok l
  | none =>
    let segments := splitPath path
    .error (.address path (if "" ∈ segments then .emptySegment else diagnose [] segments))

/-- Checks that every path leads to a leaf; the first that does not is reported. -/
def verify : List String → Except Error Unit
  | [] => .ok ()
  | path :: rest =>
    match ofPath path with
    | .ok _ => verify rest
    | .error e => .error e

/-- What a leaf holds. -/
def read (s : Settings) : (l : Leaf) → l.kind.Content
  | .database d f => (s.database d).text f
  | .mapping f => s.mappings.text f
  | .text f => s.text f
  | .flag f => s.flag f
  | .maxParallelTasks => s.maxParallelTasks

/-- The settings with another content of a leaf. -/
def write (s : Settings) : (l : Leaf) → l.kind.Content → Settings
  | .database d f, v =>
    let db := s.database d
    { s with database := replaceAt s.database d { db with text := replaceAt db.text f v } }
  | .mapping f, v => { s with mappings := { s.mappings with text := replaceAt s.mappings.text f v } }
  | .text f, v => { s with text := replaceAt s.text f v }
  | .flag f, v => { s with flag := replaceAt s.flag f v }
  | .maxParallelTasks, v => { s with maxParallelTasks := v }

/-- Is the group that a leaf belongs to final? -/
def isFinal (s : Settings) : Leaf → Bool
  | .database d _ => (s.database d).frozen
  | .mapping _ => s.mappings.frozen
  | _ => s.frozen

/-- Assigns a content unless the group is final. -/
def assign (s : Settings) (l : Leaf) (v : l.kind.Content) : Except Error Settings :=
  if isFinal s l then .error (.frozen l.field) else .ok (write s l v)

end Leaf

end ServerSettings
