import ServerSettings.Settings.Freezing
import ServerSettings.Settings.Leaf

/-!
Plain writes: a field of a group, or an item of a map or list. A frozen group refuses writes to its
fields, and the maps and lists it holds refuse items.
-/

namespace ServerSettings

/-- A field of a group and its new value. A field that the group does not declare is not kept. -/
inductive Assignment where
  | leaf (l : Leaf) (value : l.kind.Content)
  | options (d : Dialect) (value : Dict String)
  | provider (name : String) (f : ProviderField) (value : String)
  | scopes (provider : String) (value : List String)
  | endpoint (provider : String) (f : EndpointField) (value : String)
  | algorithms (provider : String) (value : List String)
  | undeclared (g : Settings.Group) (field : String)

/-- An item of a map or list and its new value; a negative index counts from the end. -/
inductive Insertion where
  | option (d : Dialect) (key value : String)
  | provider (name : String) (value : Provider)
  | scope (provider : String) (index : Int) (value : String)
  | algorithm (provider : String) (index : Int) (value : String)

/-- The list with another item at an index. -/
def setItem (items : List String) (index : Int) (value : String) : Except Error (List String) :=
  let place := if index < 0 then index + items.length else index
  if 0 ≤ place ∧ place < items.length then .ok (items.set place.toNat value)
  else .error .outOfRange

namespace Settings

/-- Changes an unfrozen provider; `field` is named when it is frozen. -/
def changeProvider (s : Settings) (name field : String) (change : Provider → Provider) :
    Except Error Settings := do
  let p ← s.provider name
  if p.frozen then .error (.frozen field) else return s.withProvider name (change p)

def changeEndpoint (s : Settings) (name field : String) (change : Endpoint → Endpoint) :
    Except Error Settings := do
  let p ← s.provider name
  if p.endpoint.frozen then .error (.frozen field)
  else return s.withProvider name { p with endpoint := change p.endpoint }

def assign (s : Settings) : Assignment → Except Error Settings
  | .leaf l value => l.assign s value
  | .options d value =>
    let db := s.database d
    if db.frozen then .error (.frozen "options")
    else .ok { s with database := replaceAt s.database d { db with options := value } }
  | .provider name f value =>
    s.changeProvider name f.name fun p => { p with text := replaceAt p.text f value }
  | .scopes name value => s.changeProvider name "scopes" fun p => { p with scopes := value }
  | .endpoint name f value =>
    s.changeEndpoint name f.name fun e => { e with text := replaceAt e.text f value }
  | .algorithms name value => s.changeEndpoint name "algorithms" fun e => { e with algorithms := value }
  | .undeclared g field => do
    if ← s.isFrozen g then .error (.frozen field) else return s

def insert (s : Settings) : Insertion → Except Error Settings
  | .option d key value =>
    let db := s.database d
    if db.frozen then .error .readOnlyMap
    else
      let db := { db with options := Dict.put db.options key value }
      .ok { s with database := replaceAt s.database d db }
  | .provider name value =>
    if s.frozen then .error .readOnlyMap else .ok (s.withProvider name value)
  | .scope name index value => do
    let p ← s.provider name
    if p.frozen then .error .readOnlyList
    else
      let scopes ← setItem p.scopes index value
      return s.withProvider name { p with scopes := scopes }
  | .algorithm name index value => do
    let p ← s.provider name
    if p.endpoint.frozen then .error .readOnlyList
    else
      let algorithms ← setItem p.endpoint.algorithms index value
      return s.withProvider name { p with endpoint := { p.endpoint with algorithms := algorithms } }

end Settings

end ServerSettings
