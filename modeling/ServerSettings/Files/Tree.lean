import ServerSettings.Files.Host

/-!
A machine whose files are a value: what a program does to it can be stated and proved.
-/

namespace ServerSettings

inductive Node where
  | file (content : List UInt8)
  | directory
  | link (target : String)
  deriving DecidableEq, Repr

/-- Nodes by the parts of their names from the root. The root itself is always a directory. -/
abbrev FileTree := List (List String × Node)

namespace FileTree

def node? (t : FileTree) (place : List String) : Option Node :=
  if place.isEmpty then some .directory else (t.find? (·.1 = place)).map (·.2)

/-- The tree with another node at a place. -/
def put (place : List String) (node : Node) : FileTree → FileTree
  | [] => [(place, node)]
  | (p, n) :: rest => if p = place then (p, node) :: rest else (p, n) :: put place node rest

def isTooLong (part : String) : Bool := 255 < part.utf8ByteSize

/-- Where a walk ended, and what is there. -/
structure Found where
  place : List String
  node : Option Node

/-- What a name is looked up for. To make a directory its last part is not followed if it is a link. -/
inductive Purpose where
  | look
  | makeDirectory
  | write
  deriving DecidableEq, Repr

/-- Are the parts left of a name those behind a slash at its end? -/
def isSlash (rest : List String) : Bool :=
  !rest.isEmpty && rest.all (· = "")

/-- Walks from a directory along parts of a name, following links: `links` bounds how many, `fuel` bounds the
steps. The target of a link may have empty parts and dots, which lead nowhere else; but only a directory has
anything behind it, and a name that ends in a slash is not written to. -/
def walk (t : FileTree) (purpose : Purpose) :
    (fuel links : Nat) → (directory : List String) → List String → Except Refusal Found
  | 0, _, _, _ => .error .tooManyLinks
  | _ + 1, _, directory, [] => .ok ⟨directory, some .directory⟩
  | fuel + 1, links, directory, part :: rest =>
    if part = "" ∨ part = "." then walk t purpose fuel links directory rest
    else if part = ".." then walk t purpose fuel links directory.dropLast rest
    else if purpose = .write ∧ isSlash rest then .error .isDirectory
    else if isTooLong part then .error .nameTooLong
    else
      let place := directory ++ [part]
      match t.node? place with
      | none => if rest.isEmpty then .ok ⟨place, none⟩ else .error .missing
      | some .directory => walk t purpose fuel links place rest
      | some (.file content) =>
        if rest.isEmpty then .ok ⟨place, some (.file content)⟩ else .error .notDirectory
      | some (.link target) =>
        if rest.isEmpty ∧ purpose = .makeDirectory then .ok ⟨place, some (.link target)⟩
        else if links = 0 then .error .tooManyLinks
        else if target = "" then .error .missing
        else
          let start := if target.toList.head? = some '/' then [] else directory
          walk t purpose fuel (links - 1) start ((Text.split '/' target.toList).map String.ofList ++ rest)

end FileTree

/-- A machine: its files, the directory that the program runs in, unless that is gone, and what else a
program may ask for. -/
structure Machine where
  files : FileTree := []
  directory : Option (List String) := some []
  environment : Environment := []
  homes : Dict String := []
  random : RandomSource := fun _ _ => []
  clock : Binary64 := .zero

namespace Machine

def linkLimit : Nat := 40

def nameLimit : Nat := 4096

/-- Steps enough for every name and every link that may be followed. -/
def walkFuel : Nat := nameLimit * (linkLimit + 1)

/-- Finds what a name leads to. A working directory that is gone is still one, but holds nothing. -/
def find (k : Machine) (purpose : FileTree.Purpose) (p : PathName) : Except Refusal FileTree.Found :=
  if nameLimit ≤ p.text.utf8ByteSize then .error .nameTooLong
  else if p.isHere then
    match k.directory with
    | some directory => k.files.walk purpose walkFuel linkLimit directory p.parts
    | none => if p.parts.isEmpty then .ok ⟨[], some .directory⟩ else .error .missing
  else k.files.walk purpose walkFuel linkLimit [] p.parts

def status (k : Machine) (p : PathName) : Except Refusal FileKind :=
  match k.find .look p with
  | .error refusal => .error refusal
  | .ok found =>
    match found.node with
    | none => .error .missing
    | some .directory => .ok .directory
    | some (.file _) => .ok .file
    | some (.link _) => .ok .other

def read (k : Machine) (p : PathName) : Except Refusal (List UInt8) :=
  match k.find .look p with
  | .error refusal => .error refusal
  | .ok found =>
    match found.node with
    | none => .error .missing
    | some (.file content) => .ok content
    | some _ => .error .isDirectory

def makeDirectory (k : Machine) (p : PathName) : Except Refusal Unit × Machine :=
  match k.find .makeDirectory p with
  | .error refusal => (.error refusal, k)
  | .ok found =>
    match found.node with
    | none => (.ok (), { k with files := k.files.put found.place .directory })
    | some _ => (.error .present, k)

def write (k : Machine) (p : PathName) (content : List UInt8) : Except Refusal Unit × Machine :=
  match k.find .write p with
  | .error refusal => (.error refusal, k)
  | .ok found =>
    match found.node with
    | some .directory => (.error .isDirectory, k)
    | _ => (.ok (), { k with files := k.files.put found.place (.file content) })

def append (k : Machine) (p : PathName) (content : List UInt8) : Except Refusal Unit × Machine :=
  k.write p ((k.read p).toOption.getD [] ++ content)

end Machine

instance : Host (StateM Machine) where
  environment := fun k => (k.environment, k)
  home := fun user k => (user.bind (Dict.lookup k.homes), k)
  workingDirectory := fun k =>
    match k.directory with
    | some directory => (.ok { start := .root, parts := directory }, k)
    | none => (.error .missing, k)
  status := fun p k => (k.status p, k)
  read := fun p k => (k.read p, k)
  makeDirectory := fun p k => k.makeDirectory p
  write := fun p content k => k.write p content
  append := fun p content k => k.append p content
  random := fun k => (k.random, k)
  clock := fun k => (k.clock, k)

end ServerSettings
