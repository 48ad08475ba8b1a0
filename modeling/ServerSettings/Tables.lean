import ServerSettings.Pattern
import ServerSettings.Settings.Leaf

/-!
Which variables of the environment override which settings, what empty settings are filled with, and
which pattern each setting must match.
-/

namespace ServerSettings.Tables

open Leaf

/-- Storage groups share their variables, so of these only the ones of the selected backend apply. The
backend itself comes first, as the others depend on it. -/
def overrides : List (Leaf × String) :=
  [(.text .dialect, "SEMAPHORE_DB_DIALECT"),
   (.database .mysql .hostname, "SEMAPHORE_DB_HOST"),
   (.database .mysql .username, "SEMAPHORE_DB_USER"),
   (.database .mysql .password, "SEMAPHORE_DB_PASS"),
   (.database .mysql .dbName, "SEMAPHORE_DB"),
   (.database .postgres .hostname, "SEMAPHORE_DB_HOST"),
   (.database .postgres .username, "SEMAPHORE_DB_USER"),
   (.database .postgres .password, "SEMAPHORE_DB_PASS"),
   (.database .postgres .dbName, "SEMAPHORE_DB"),
   (.database .bolt .hostname, "SEMAPHORE_DB_HOST"),
   (.text .port, "SEMAPHORE_PORT"),
   (.text .interface, "SEMAPHORE_INTERFACE"),
   (.text .tmpPath, "SEMAPHORE_TMP_PATH"),
   (.text .sshConfigPath, "SEMAPHORE_SSH_CONFIG_PATH"),
   (.text .gitClient, "SEMAPHORE_GIT_CLIENT"),
   (.text .webHost, "SEMAPHORE_WEB_ROOT"),
   (.text .cookieHash, "SEMAPHORE_COOKIE_HASH"),
   (.text .cookieEncryption, "SEMAPHORE_COOKIE_ENCRYPTION"),
   (.text .accessKeyEncryption, "SEMAPHORE_ACCESS_KEY_ENCRYPTION"),
   (.flag .emailAlert, "SEMAPHORE_EMAIL_ALERT"),
   (.text .emailSender, "SEMAPHORE_EMAIL_SENDER"),
   (.text .emailHost, "SEMAPHORE_EMAIL_HOST"),
   (.text .emailPort, "SEMAPHORE_EMAIL_PORT"),
   (.text .emailUsername, "SEMAPHORE_EMAIL_USER"),
   (.text .emailPassword, "SEMAPHORE_EMAIL_PASSWORD"),
   (.flag .emailSecure, "SEMAPHORE_EMAIL_SECURE"),
   (.flag .ldapEnable, "SEMAPHORE_LDAP_ACTIVATED"),
   (.text .ldapBindDn, "SEMAPHORE_LDAP_DN_BIND"),
   (.text .ldapBindPassword, "SEMAPHORE_LDAP_PASSWORD"),
   (.text .ldapServer, "SEMAPHORE_LDAP_HOST"),
   (.text .ldapSearchDn, "SEMAPHORE_LDAP_DN_SEARCH"),
   (.text .ldapSearchFilter, "SEMAPHORE_LDAP_SEARCH_FILTER"),
   (.mapping .dn, "SEMAPHORE_LDAP_MAPPING_DN"),
   (.mapping .uid, "SEMAPHORE_LDAP_MAPPING_USERNAME"),
   (.mapping .cn, "SEMAPHORE_LDAP_MAPPING_FULLNAME"),
   (.mapping .mail, "SEMAPHORE_LDAP_MAPPING_EMAIL"),
   (.flag .ldapNeedTls, "SEMAPHORE_LDAP_NEEDTLS"),
   (.flag .telegramAlert, "SEMAPHORE_TELEGRAM_ALERT"),
   (.text .telegramChat, "SEMAPHORE_TELEGRAM_CHAT"),
   (.text .telegramToken, "SEMAPHORE_TELEGRAM_TOKEN"),
   (.flag .slackAlert, "SEMAPHORE_SLACK_ALERT"),
   (.text .slackUrl, "SEMAPHORE_SLACK_URL"),
   (.maxParallelTasks, "SEMAPHORE_MAX_PARALLEL_TASKS")]

def defaults : List (Leaf × String) :=
  [(.text .port, ":3000"), (.text .tmpPath, "/tmp/semaphore"), (.text .gitClient, "go_git")]

def decimalDigits : List (Char × Char) := [('0', '9')]

/-- At least forty characters of Base64, with a hyphen too. -/
def keyMaterial : Pattern :=
  ⟨[[.run [('-', '-'), ('A', 'Z'), ('a', 'z'), ('0', '9'), ('+', '+'), ('=', '='), ('/', '/')] 40 none]]⟩

/-- A pattern may allow values that are of no use, such as a port beyond 65535. -/
def patterns : List (Leaf × Pattern) :=
  [(.text .dialect, .oneOf ["", "mysql", "bolt", "postgres"]),
   (.text .port, ⟨[[.char ':', .run decimalDigits 1 (some 5)]]⟩),
   (.text .gitClient, .oneOf ["go_git", "cmd_git"]),
   (.text .cookieHash, keyMaterial),
   (.text .cookieEncryption, keyMaterial),
   (.text .accessKeyEncryption, keyMaterial),
   (.text .emailPort, ⟨[[], [.run decimalDigits 1 (some 5)]]⟩),
   (.maxParallelTasks, ⟨[[.run decimalDigits 1 (some 10)]]⟩)]

/-- The settings that hold keys, in Base64. -/
def keys : List TextSetting :=
  [.cookieHash, .cookieEncryption, .accessKeyEncryption]

/-- Every path that the tables name, once. -/
def allPaths : List String :=
  ((overrides.map (·.1.path)) ++ (defaults.map (·.1.path)) ++ (patterns.map (·.1.path))).eraseDups

/-- Variables that name the connection of the selected backend when it is used. -/
def hostVariable : String := "SEMAPHORE_DB_HOST"
def userVariable : String := "SEMAPHORE_DB_USER"
def passwordVariable : String := "SEMAPHORE_DB_PASS"
def databaseVariable : String := "SEMAPHORE_DB_NAME"

/-- The variable that names the file of settings, and where one is looked for otherwise. -/
def fileVariable : String := "SEMAPHORE_CONFIG_PATH"
def fileName : String := "config.json"
def systemFile : String := "/usr/local/etc/semaphore/config.json"

end ServerSettings.Tables
