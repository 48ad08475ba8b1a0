import ServerSettings.Log.Redaction
import ServerSettings.Text.Utf8
import ServerSettings.Value

/-!
The normal form in which values are logged: JSON without the numbers that JSON has no text for.
-/

namespace ServerSettings.Value

/-- A number that is not finite has no JSON text and is withheld. -/
def normalFloat (x : Binary64) : Json :=
  if x.isFinite then .float x else .redacted

mutual

/-- Bytes become the text they encode, paths their text, tuples arrays, and values of other types what
they are shown as. Keys become texts; of keys with one text the first gives the place and the last the
value. -/
def normal : Value → Except NumberFault Json
  | .none => .ok .null
  | .bool b => .ok (.bool b)
  | .int n => .ok (.int n)
  | .float x => .ok (normalFloat x)
  | .text s => .ok (.str s)
  | .bytes b => .ok (.str (String.ofList (Utf8.decodeLossy b)))
  | .path p => .ok (.str p)
  | .list items => (normalItems items).map .arr
  | .tuple items => (normalItems items).map .arr
  | .map entries => (normalEntries entries).map fun members => .obj (Dict.ofList members)
  | .foreign _ shown => .ok (.str shown)

def normalItems : List Value → Except NumberFault (List Json)
  | [] => .ok []
  | v :: rest =>
    match normal v with
    | .error e => .error e
    | .ok item => (normalItems rest).map (item :: ·)

def normalEntries : List (Value × Value) → Except NumberFault (List (String × Json))
  | [] => .ok []
  | (k, v) :: rest =>
    match plain k with
    | .error e => .error e
    | .ok key =>
      match normal v with
      | .error e => .error e
      | .ok value => (normalEntries rest).map ((key, value) :: ·)

end

mutual

/-- A JSON value as a value. -/
def ofJson : Json → Value
  | .null => .none
  | .bool b => .bool b
  | .int n => .int n
  | .float x => .float x
  | .str s => .text s
  | .arr items => .list (ofJsonItems items)
  | .obj members => .map (ofJsonMembers members)

def ofJsonItems : List Json → List Value
  | [] => []
  | v :: rest => ofJson v :: ofJsonItems rest

def ofJsonMembers : List (String × Json) → List (Value × Value)
  | [] => []
  | (k, v) :: rest => (.text k, ofJson v) :: ofJsonMembers rest

end

end ServerSettings.Value
