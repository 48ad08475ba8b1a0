import ServerSettings.Text.Split

/-!
Accounts of users: lines of seven fields between colons, of which the first is the name, the third the
number, and the sixth the home directory.
-/

namespace ServerSettings

structure Account where
  name : String
  number : String
  home : String
  deriving DecidableEq, Repr

namespace Account

def ofLine? (line : List Char) : Option Account :=
  match (Text.split ':' line).map String.ofList with
  | [name, _, number, _, _, home, _] => some { name, number, home }
  | _ => none

def ofText (s : String) : List Account :=
  (Text.split '\n' s.toList).filterMap ofLine?

/-- The number of the user who runs a process, from the fields that the system shows of it. -/
def runner? (status : String) : Option String := do
  let fields ← (Text.split '\n' status.toList).findSome? (Text.after? "Uid:\t".toList)
  let (number, _) ← Text.cut? '\t' fields
  return String.ofList number

end Account

end ServerSettings
