import ServerSettings.Settings.Codec

/-!
Freezing: making settings final, all of them or one group with everything inside it. There is no way
back.
-/

namespace ServerSettings

def Database.freeze (db : Database) : Database :=
  { db with frozen := true }

def Mappings.freeze (m : Mappings) : Mappings :=
  { m with frozen := true }

def Endpoint.freeze (e : Endpoint) : Endpoint :=
  { e with frozen := true }

def Provider.freeze (p : Provider) : Provider :=
  { p with endpoint := p.endpoint.freeze, frozen := true }

namespace Settings

def freeze (s : Settings) : Settings :=
  { s with
    database := fun d => (s.database d).freeze
    mappings := s.mappings.freeze
    providers := Dict.mapValues Provider.freeze s.providers
    frozen := true }

/-- A group of the settings. -/
inductive Group where
  | root
  | database (d : Dialect)
  | mappings
  | provider (name : String)
  | endpoint (provider : String)
  deriving DecidableEq, Repr

/-- The provider of a name. -/
def provider (s : Settings) (name : String) : Except Error Provider :=
  match Dict.lookup s.providers name with
  | some p => .ok p
  | none => .error (.missingKey name)

/-- The settings with another provider under a name. -/
def withProvider (s : Settings) (name : String) (p : Provider) : Settings :=
  { s with providers := Dict.put s.providers name p }

/-- Freezes one group. -/
def freezeGroup (s : Settings) : Group → Except Error Settings
  | .root => .ok s.freeze
  | .database d => .ok { s with database := replaceAt s.database d (s.database d).freeze }
  | .mappings => .ok { s with mappings := s.mappings.freeze }
  | .provider name => (s.provider name).map fun p => s.withProvider name p.freeze
  | .endpoint name =>
    (s.provider name).map fun p => s.withProvider name { p with endpoint := p.endpoint.freeze }

def isFrozen (s : Settings) : Group → Except Error Bool
  | .root => .ok s.frozen
  | .database d => .ok (s.database d).frozen
  | .mappings => .ok s.mappings.frozen
  | .provider name => (s.provider name).map (·.frozen)
  | .endpoint name => (s.provider name).map (·.endpoint.frozen)

def groupJson (s : Settings) : Group → Except Error Json
  | .root => .ok s.toJson
  | .database d => .ok (s.database d).toJson
  | .mappings => .ok s.mappings.toJson
  | .provider name => (s.provider name).map (·.toJson)
  | .endpoint name => (s.provider name).map (·.endpoint.toJson)

/-- Is every group final? -/
def isFinal (s : Settings) : Bool :=
  s.frozen && Dialect.all.all (fun d => (s.database d).frozen) && s.mappings.frozen &&
    s.providers.all fun p => p.2.frozen && p.2.endpoint.frozen

/-- Do two functions agree on every field of an enumeration? -/
def agree {φ : Type} (fields : List φ) (a b : φ → String) : Bool :=
  fields.all fun f => a f = b f

end Settings

/-- Equality of groups; lists of frozen groups are no longer equal to lists that can change. -/
def Database.same (a b : Database) : Bool :=
  Settings.agree DatabaseField.all a.text b.text && Dict.same (· = ·) a.options b.options

def Mappings.same (a b : Mappings) : Bool :=
  Settings.agree MappingField.all a.text b.text

def Endpoint.same (a b : Endpoint) : Bool :=
  Settings.agree EndpointField.all a.text b.text && a.frozen = b.frozen && a.algorithms = b.algorithms

def Provider.same (a b : Provider) : Bool :=
  Settings.agree ProviderField.all a.text b.text && a.frozen = b.frozen && a.scopes = b.scopes &&
    a.endpoint.same b.endpoint

namespace Settings

def same (a b : Settings) : Bool :=
  Dialect.all.all (fun d => (a.database d).same (b.database d)) &&
    agree TextSetting.all a.text b.text && FlagSetting.all.all (fun f => a.flag f = b.flag f) &&
    a.mappings.same b.mappings && Dict.same Provider.same a.providers b.providers &&
    a.maxParallelTasks = b.maxParallelTasks

end Settings

end ServerSettings
