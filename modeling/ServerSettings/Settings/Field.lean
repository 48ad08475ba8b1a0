/-!
The fields of the settings record. Every field has a name, which paths are made of, and a key, under
which a file holds it.
-/

namespace ServerSettings

/-- Storage backends. -/
inductive Dialect where
  | mysql
  | bolt
  | postgres
  deriving DecidableEq, Repr

namespace Dialect

/-- In the order in which they are declared, which is also that in which they are looked for. -/
def all : List Dialect := [.mysql, .bolt, .postgres]

def name : Dialect → String
  | .mysql => "mysql"
  | .bolt => "bolt"
  | .postgres => "postgres"

/-- The backend of exactly this name. -/
def ofName? (s : String) : Option Dialect :=
  all.find? (·.name = s)

theorem ofName?_name (d : Dialect) : ofName? d.name = some d := by
  cases d <;> rfl

theorem name_of_ofName? {s : String} {d : Dialect} (h : ofName? s = some d) : d.name = s := by
  simpa using List.find?_some h

end Dialect

/-- Texts of a storage group. -/
inductive DatabaseField where
  | hostname
  | username
  | password
  | dbName
  deriving DecidableEq, Repr

namespace DatabaseField

def all : List DatabaseField :=
  [.hostname, .username, .password, .dbName]

def name : DatabaseField → String
  | .hostname => "hostname"
  | .username => "username"
  | .password => "password"
  | .dbName => "db_name"

def key : DatabaseField → String
  | .hostname => "host"
  | .username => "user"
  | .password => "pass"
  | .dbName => "name"

theorem mem_all (f : DatabaseField) : f ∈ all := by
  cases f <;> decide

end DatabaseField

/-- Directory attributes that make up a user. -/
inductive MappingField where
  | dn
  | mail
  | uid
  | cn
  deriving DecidableEq, Repr

namespace MappingField

def all : List MappingField :=
  [.dn, .mail, .uid, .cn]

def name : MappingField → String
  | .dn => "dn"
  | .mail => "mail"
  | .uid => "uid"
  | .cn => "cn"

def key (f : MappingField) : String := f.name

theorem mem_all (f : MappingField) : f ∈ all := by
  cases f <;> decide

end MappingField

/-- Addresses of an identity provider. -/
inductive EndpointField where
  | issuerUrl
  | authUrl
  | tokenUrl
  | userinfoUrl
  | jwksUrl
  deriving DecidableEq, Repr

namespace EndpointField

def all : List EndpointField :=
  [.issuerUrl, .authUrl, .tokenUrl, .userinfoUrl, .jwksUrl]

def name : EndpointField → String
  | .issuerUrl => "issuer_url"
  | .authUrl => "auth_url"
  | .tokenUrl => "token_url"
  | .userinfoUrl => "userinfo_url"
  | .jwksUrl => "jwks_url"

def key : EndpointField → String
  | .issuerUrl => "issuer"
  | .authUrl => "auth"
  | .tokenUrl => "token"
  | .userinfoUrl => "userinfo"
  | .jwksUrl => "jwks"

theorem mem_all (f : EndpointField) : f ∈ all := by
  cases f <;> decide

end EndpointField

/-- Texts of an identity provider. -/
inductive ProviderField where
  | clientId
  | clientSecret
  | redirectUrl
  | displayName
  | autoDiscovery
  | usernameClaim
  | nameClaim
  | emailClaim
  deriving DecidableEq, Repr

namespace ProviderField

def all : List ProviderField :=
  [.clientId, .clientSecret, .redirectUrl, .displayName, .autoDiscovery, .usernameClaim,
   .nameClaim, .emailClaim]

def name : ProviderField → String
  | .clientId => "client_id"
  | .clientSecret => "client_secret"
  | .redirectUrl => "redirect_url"
  | .displayName => "display_name"
  | .autoDiscovery => "auto_discovery"
  | .usernameClaim => "username_claim"
  | .nameClaim => "name_claim"
  | .emailClaim => "email_claim"

def key : ProviderField → String
  | .autoDiscovery => "provider_url"
  | f => f.name

theorem mem_all (f : ProviderField) : f ∈ all := by
  cases f <;> decide

end ProviderField

/-- Settings of the server that are texts. -/
inductive TextSetting where
  | dialect
  | port
  | interface
  | tmpPath
  | sshConfigPath
  | gitClient
  | webHost
  | cookieHash
  | cookieEncryption
  | accessKeyEncryption
  | emailSender
  | emailHost
  | emailPort
  | emailUsername
  | emailPassword
  | ldapBindDn
  | ldapBindPassword
  | ldapServer
  | ldapSearchDn
  | ldapSearchFilter
  | telegramChat
  | telegramToken
  | slackUrl
  deriving DecidableEq, Repr

namespace TextSetting

def all : List TextSetting :=
  [.dialect, .port, .interface, .tmpPath, .sshConfigPath, .gitClient, .webHost, .cookieHash,
   .cookieEncryption, .accessKeyEncryption, .emailSender, .emailHost, .emailPort, .emailUsername,
   .emailPassword, .ldapBindDn, .ldapBindPassword, .ldapServer, .ldapSearchDn, .ldapSearchFilter,
   .telegramChat, .telegramToken, .slackUrl]

def name : TextSetting → String
  | .dialect => "dialect"
  | .port => "port"
  | .interface => "interface"
  | .tmpPath => "tmp_path"
  | .sshConfigPath => "ssh_config_path"
  | .gitClient => "git_client"
  | .webHost => "web_host"
  | .cookieHash => "cookie_hash"
  | .cookieEncryption => "cookie_encryption"
  | .accessKeyEncryption => "access_key_encryption"
  | .emailSender => "email_sender"
  | .emailHost => "email_host"
  | .emailPort => "email_port"
  | .emailUsername => "email_username"
  | .emailPassword => "email_password"
  | .ldapBindDn => "ldap_bind_dn"
  | .ldapBindPassword => "ldap_bind_password"
  | .ldapServer => "ldap_server"
  | .ldapSearchDn => "ldap_search_dn"
  | .ldapSearchFilter => "ldap_search_filter"
  | .telegramChat => "telegram_chat"
  | .telegramToken => "telegram_token"
  | .slackUrl => "slack_url"

def key : TextSetting → String
  | .ldapBindDn => "ldap_binddn"
  | .ldapBindPassword => "ldap_bindpassword"
  | .ldapSearchDn => "ldap_searchdn"
  | .ldapSearchFilter => "ldap_searchfilter"
  | f => f.name

theorem mem_all (f : TextSetting) : f ∈ all := by
  cases f <;> decide

end TextSetting

/-- Settings of the server that are switches. -/
inductive FlagSetting where
  | emailAlert
  | emailSecure
  | ldapEnable
  | ldapNeedTls
  | telegramAlert
  | slackAlert
  | demoMode
  | passwordLoginDisable
  | nonAdminCanCreateProject
  deriving DecidableEq, Repr

namespace FlagSetting

def all : List FlagSetting :=
  [.emailAlert, .emailSecure, .ldapEnable, .ldapNeedTls, .telegramAlert, .slackAlert, .demoMode,
   .passwordLoginDisable, .nonAdminCanCreateProject]

def name : FlagSetting → String
  | .emailAlert => "email_alert"
  | .emailSecure => "email_secure"
  | .ldapEnable => "ldap_enable"
  | .ldapNeedTls => "ldap_need_tls"
  | .telegramAlert => "telegram_alert"
  | .slackAlert => "slack_alert"
  | .demoMode => "demo_mode"
  | .passwordLoginDisable => "password_login_disable"
  | .nonAdminCanCreateProject => "non_admin_can_create_project"

def key : FlagSetting → String
  | .ldapNeedTls => "ldap_needtls"
  | f => f.name

theorem mem_all (f : FlagSetting) : f ∈ all := by
  cases f <;> decide

end FlagSetting

/-- A function with one value replaced. -/
def replaceAt {φ α : Type} [DecidableEq φ] (values : φ → α) (field : φ) (value : α) : φ → α :=
  fun f => if f = field then value else values f

theorem replaceAt_self {φ α : Type} [DecidableEq φ] (values : φ → α) (field : φ) (value : α) :
    replaceAt values field value field = value := by
  simp [replaceAt]

theorem replaceAt_of_ne {φ α : Type} [DecidableEq φ] (values : φ → α) {field other : φ} (value : α)
    (h : other ≠ field) : replaceAt values field value other = values other := by
  simp [replaceAt, h]

end ServerSettings
