import ServerSettings.Dict

/-!
The variables of an environment. A variable that is empty counts as not set.
-/

namespace ServerSettings

abbrev Environment := Dict String

/-- The value of a variable that is not empty. -/
def Environment.value? (env : Environment) (name : String) : Option String :=
  (Dict.lookup env name).filter (· ≠ "")

/-- The value of a variable, or what is used instead of it. -/
def Environment.valueOr (env : Environment) (name fallback : String) : String :=
  (env.value? name).getD fallback

end ServerSettings
