import ServerSettings.Dict
import ServerSettings.Settings.Field

/-!
The settings of a server. Every group can be frozen by itself, and then it is final: its fields, and
the maps and lists that it holds, no longer change.
-/

namespace ServerSettings

/-- How one storage backend is reached. -/
structure Database where
  text : DatabaseField → String := fun _ => ""
  options : Dict String := []
  frozen : Bool := false

/-- Which attributes of a directory entry make up a user. -/
structure Mappings where
  text : MappingField → String := fun _ => ""
  frozen : Bool := false

structure Endpoint where
  text : EndpointField → String := fun _ => ""
  algorithms : List String := []
  frozen : Bool := false

structure Provider where
  text : ProviderField → String := fun _ => ""
  scopes : List String := []
  endpoint : Endpoint := {}
  frozen : Bool := false

/-- `frozen` is about the settings' own fields and the map of providers; the groups have marks of their
own. -/
structure Settings where
  database : Dialect → Database := fun _ => {}
  text : TextSetting → String := fun _ => ""
  flag : FlagSetting → Bool := fun _ => false
  mappings : Mappings := {}
  providers : Dict Provider := []
  maxParallelTasks : Int := 0
  frozen : Bool := false

namespace Settings

/-- What the root of the settings declares. -/
inductive Member where
  | database (d : Dialect)
  | text (f : TextSetting)
  | flag (f : FlagSetting)
  | mappings
  | providers
  | maxParallelTasks
  deriving DecidableEq, Repr

namespace Member

/-- In the order in which a file holds them. -/
def all : List Member :=
  [.database .mysql, .database .bolt, .database .postgres,
   .text .dialect, .text .port, .text .interface, .text .tmpPath, .text .sshConfigPath,
   .text .gitClient, .text .webHost, .text .cookieHash, .text .cookieEncryption,
   .text .accessKeyEncryption,
   .flag .emailAlert, .text .emailSender, .text .emailHost, .text .emailPort, .text .emailUsername,
   .text .emailPassword, .flag .emailSecure,
   .flag .ldapEnable, .text .ldapBindDn, .text .ldapBindPassword, .text .ldapServer,
   .text .ldapSearchDn, .text .ldapSearchFilter, .mappings, .flag .ldapNeedTls,
   .flag .telegramAlert, .text .telegramChat, .text .telegramToken, .flag .slackAlert, .text .slackUrl,
   .providers, .maxParallelTasks,
   .flag .demoMode, .flag .passwordLoginDisable, .flag .nonAdminCanCreateProject]

def name : Member → String
  | .database d => d.name
  | .text f => f.name
  | .flag f => f.name
  | .mappings => "ldap_mappings"
  | .providers => "oidc_providers"
  | .maxParallelTasks => "max_parallel_tasks"

def key : Member → String
  | .text f => f.key
  | .flag f => f.key
  | m => m.name

theorem mem_all (m : Member) : m ∈ all := by
  cases m with
  | database d => cases d <;> decide
  | text f => cases f <;> decide
  | flag f => cases f <;> decide
  | _ => decide

end Member

end Settings

end ServerSettings
