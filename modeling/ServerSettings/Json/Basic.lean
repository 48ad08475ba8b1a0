import ServerSettings.Decimal.Binary64
import ServerSettings.Dict

/-!
JSON values. Whole numbers are unbounded and apart from the others; objects keep the order of their
members.
-/

namespace ServerSettings

inductive Json where
  | null
  | bool (b : Bool)
  | int (n : Int)
  | float (x : Binary64)
  | str (s : String)
  | arr (items : List Json)
  | obj (members : List (String × Json))

namespace Json

/-- The name of a value's type, as messages to an operator give it. -/
inductive Kind where
  | null
  | boolean
  | number
  | string
  | array
  | object
  deriving DecidableEq, Repr

def kind : Json → Kind
  | .null => .null
  | .bool _ => .boolean
  | .int _ => .number
  | .float _ => .number
  | .str _ => .string
  | .arr _ => .array
  | .obj _ => .object

def Kind.name : Kind → String
  | .null => "null"
  | .boolean => "boolean"
  | .number => "number"
  | .string => "string"
  | .array => "array"
  | .object => "object"

/-- The value of a member of an object. -/
def member? : Json → String → Option Json
  | .obj members, key => Dict.lookup members key
  | _, _ => none

end Json

end ServerSettings
