import ServerSettings.Error
import ServerSettings.Json.Writer
import ServerSettings.Settings.Basic

/-!
Settings as JSON. A group is declared as a list of slots, one a member; reading and writing go through
the slots in order. Members that no slot declares are passed over, and one that is absent or null leaves
its field empty.
-/

namespace ServerSettings

/-- One declared member of a group: its key, how its value is read into the group, and how it is
written. -/
structure Slot (γ : Type) where
  key : String
  read : (path : String) → Json → γ → Except Error γ
  write : γ → Json

/-- The path of a member. -/
def joinPath (path key : String) : String :=
  if path = "" then key else path ++ "." ++ key

def mismatch {α : Type} (path : String) (want : Want) (v : Json) : Except Error α :=
  .error (.coercion path (.mismatch want v.kind))

def readText (path : String) : Json → Except Error String
  | .str s => .ok s
  | v => mismatch path .string v

def readFlag (path : String) : Json → Except Error Bool
  | .bool b => .ok b
  | v => mismatch path .boolean v

def readWhole (path : String) : Json → Except Error Int
  | .int n => .ok n
  | v => mismatch path .integer v

def readEntries {α : Type} (read : String → Json → Except Error α) (path : String) :
    Dict Json → Except Error (Dict α)
  | [] => .ok []
  | (key, v) :: rest => do
    let value ← read (joinPath path key) v
    let more ← readEntries read path rest
    return (key, value) :: more

/-- A map under its path. -/
def readMap {α : Type} (read : String → Json → Except Error α) (path : String) :
    Json → Except Error (Dict α)
  | .obj members => readEntries read path members
  | v => mismatch path .object v

def readItems {α : Type} (read : String → Json → Except Error α) (path : String) :
    (index : Nat) → List Json → Except Error (List α)
  | _, [] => .ok []
  | index, v :: rest => do
    let item ← read (path ++ "[" ++ toString index ++ "]") v
    let more ← readItems read path (index + 1) rest
    return item :: more

/-- A list under its path. -/
def readList {α : Type} (read : String → Json → Except Error α) (path : String) :
    Json → Except Error (List α)
  | .arr items => readItems read path 0 items
  | v => mismatch path .array v

/-- Reads the members of an object slot by slot into a group. -/
def readSlots {γ : Type} (path : String) (members : Dict Json) : List (Slot γ) → γ → Except Error γ
  | [], group => .ok group
  | slot :: rest, group =>
    match Dict.lookup members slot.key with
    | none | some .null => readSlots path members rest group
    | some v => do
      let group ← slot.read (joinPath path slot.key) v group
      readSlots path members rest group

def readGroup {γ : Type} (slots : List (Slot γ)) (empty : γ) (path : String) : Json → Except Error γ
  | .obj members => readSlots path members slots empty
  | v => mismatch path .object v

def writeGroup {γ : Type} (slots : List (Slot γ)) (group : γ) : Json :=
  .obj (slots.map fun slot => (slot.key, slot.write group))

def writeTexts (items : List String) : Json :=
  .arr (items.map .str)

/-- A slot that holds one value, read by `read` and put into the group by `put`. -/
def Slot.of {γ α : Type} (key : String) (read : String → Json → Except Error α) (put : α → γ → γ)
    (write : γ → Json) : Slot γ where
  key := key
  read path v group := (read path v).map fun value => put value group
  write := write

namespace Database

def slots : List (Slot Database) :=
  (DatabaseField.all.map fun f =>
    .of f.key readText (fun s db => { db with text := replaceAt db.text f s }) (.str <| ·.text f)) ++
  [.of "options" (readMap readText) (fun o db => { db with options := o })
    fun db => .obj (Dict.mapValues .str db.options)]

def read (path : String) (v : Json) : Except Error Database :=
  readGroup slots {} path v

def toJson (db : Database) : Json :=
  writeGroup slots db

end Database

namespace Mappings

def slots : List (Slot Mappings) :=
  MappingField.all.map fun f =>
    .of f.key readText (fun s m => { m with text := replaceAt m.text f s }) (.str <| ·.text f)

def read (path : String) (v : Json) : Except Error Mappings :=
  readGroup slots {} path v

def toJson (m : Mappings) : Json :=
  writeGroup slots m

end Mappings

namespace Endpoint

def slots : List (Slot Endpoint) :=
  (EndpointField.all.map fun f =>
    .of f.key readText (fun s e => { e with text := replaceAt e.text f s }) (.str <| ·.text f)) ++
  [.of "algorithms" (readList readText) (fun a e => { e with algorithms := a })
    (writeTexts ·.algorithms)]

def read (path : String) (v : Json) : Except Error Endpoint :=
  readGroup slots {} path v

def toJson (e : Endpoint) : Json :=
  writeGroup slots e

end Endpoint

namespace Provider

/-- What a provider declares. -/
inductive Member where
  | text (f : ProviderField)
  | scopes
  | endpoint
  deriving DecidableEq, Repr

/-- In the order in which a file holds them. -/
def Member.all : List Member :=
  [.text .clientId, .text .clientSecret, .text .redirectUrl, .scopes, .text .displayName,
   .text .autoDiscovery, .endpoint, .text .usernameClaim, .text .nameClaim, .text .emailClaim]

def slot : Member → Slot Provider
  | .text f =>
    .of f.key readText (fun s p => { p with text := replaceAt p.text f s }) (.str <| ·.text f)
  | .scopes =>
    .of "scopes" (readList readText) (fun s p => { p with scopes := s }) (writeTexts ·.scopes)
  | .endpoint =>
    .of "endpoint" Endpoint.read (fun e p => { p with endpoint := e }) (·.endpoint.toJson)

def slots : List (Slot Provider) :=
  Member.all.map slot

def read (path : String) (v : Json) : Except Error Provider :=
  readGroup slots {} path v

def toJson (p : Provider) : Json :=
  writeGroup slots p

end Provider

namespace Settings

def slot (m : Member) : Slot Settings :=
  match m with
  | .database d =>
    .of m.key Database.read (fun db s => { s with database := replaceAt s.database d db })
      fun s => (s.database d).toJson
  | .text f =>
    .of m.key readText (fun t s => { s with text := replaceAt s.text f t }) (.str <| ·.text f)
  | .flag f =>
    .of m.key readFlag (fun b s => { s with flag := replaceAt s.flag f b }) (.bool <| ·.flag f)
  | .mappings =>
    .of m.key Mappings.read (fun x s => { s with mappings := x }) (·.mappings.toJson)
  | .providers =>
    .of m.key (readMap Provider.read) (fun ps s => { s with providers := ps })
      fun s => .obj (Dict.mapValues Provider.toJson s.providers)
  | .maxParallelTasks =>
    .of m.key readWhole (fun n s => { s with maxParallelTasks := n }) (.int <| ·.maxParallelTasks)

def slots : List (Slot Settings) :=
  Member.all.map slot

/-- Reads the members of an object that stands at a path. -/
def read (path : String) (v : Json) : Except Error Settings :=
  readGroup slots {} path v

/-- Reads a whole document. -/
def decode : Json → Except Error Settings
  | .obj members => read "" (.obj members)
  | v => mismatch "<root>" .object v

def toJson (s : Settings) : Json :=
  writeGroup slots s

def layout : Json.Layout := { step := some 2 }

/-- The settings as an indented document. -/
def render (s : Settings) : Except Error String :=
  (Json.text layout s.toJson).mapError .number

end Settings

end ServerSettings
