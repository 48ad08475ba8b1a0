import ServerSettings.Decimal.Shortest
import ServerSettings.Decimal.Whole
import ServerSettings.Text.Quoted

/-!
Values of any type that a caller may hand over: as the new value of a setting, as part of a log record,
or as an argument of a message. Each has two texts: the plain one, and the quoted one that it has inside
a collection.
-/

namespace ServerSettings

/-- `path` holds a file path in its normal form; `foreign` is a value known only by the name of its type
and by its text. -/
inductive Value where
  | none
  | bool (b : Bool)
  | int (n : Int)
  | float (x : Binary64)
  | text (s : String)
  | bytes (b : List UInt8)
  | path (p : String)
  | list (items : List Value)
  | tuple (items : List Value)
  | map (entries : List (Value × Value))
  | foreign (typeName shown : String)

instance : Inhabited Value := ⟨.none⟩

namespace Value

def typeName : Value → String
  | .none => "NoneType"
  | .bool _ => "bool"
  | .int _ => "int"
  | .float _ => "float"
  | .text _ => "str"
  | .bytes _ => "bytes"
  | .path _ => "PosixPath"
  | .list _ => "list"
  | .tuple _ => "tuple"
  | .map _ => "dict"
  | .foreign name _ => name

def commaSeparated (parts : List String) : String :=
  String.intercalate ", " parts

mutual

/-- The text of a value inside a collection. -/
def quoted : Value → Except NumberFault String
  | .none => .ok "None"
  | .bool b => .ok (if b then "True" else "False")
  | .int n => Whole.text n
  | .float x => .ok x.text
  | .text s => .ok (Text.quoted s)
  | .bytes b => .ok (Text.quotedBytes b)
  | .path p => .ok ("PosixPath(" ++ Text.quoted p ++ ")")
  | .list items => (quotedItems items).map fun parts => "[" ++ commaSeparated parts ++ "]"
  | .tuple items => (quotedItems items).map fun parts =>
    match parts with
    | [part] => "(" ++ part ++ ",)"
    | parts => "(" ++ commaSeparated parts ++ ")"
  | .map entries => (quotedEntries entries).map fun parts => "\x7b" ++ commaSeparated parts ++ "\x7d"
  | .foreign _ shown => .ok shown

def quotedItems : List Value → Except NumberFault (List String)
  | [] => .ok []
  | v :: rest =>
    match quoted v with
    | .error e => .error e
    | .ok part => (quotedItems rest).map (part :: ·)

def quotedEntries : List (Value × Value) → Except NumberFault (List String)
  | [] => .ok []
  | (k, v) :: rest =>
    match quoted k with
    | .error e => .error e
    | .ok key =>
      match quoted v with
      | .error e => .error e
      | .ok value => (quotedEntries rest).map ((key ++ ": " ++ value) :: ·)

end

/-- The text of a value that stands alone. -/
def plain : Value → Except NumberFault String
  | .text s => .ok s
  | .path p => .ok p
  | v => quoted v

/-- Is a whole number equal to a double precision number? -/
def sameNumber (n : Int) : Binary64 → Bool
  | .finite negative m e =>
    let (num, den) := Binary64.ratio m e
    num = n.natAbs * den ∧ (n = 0 ∨ decide (n < 0) = negative)
  | _ => false

/-- Equality of finite and infinite numbers; zeros of either sign are equal. -/
def sameFloat (x y : Binary64) : Bool :=
  match x, y with
  | .nan, _ => false
  | .finite _ 0 _, .finite _ 0 _ => true
  | x, y => x = y

/-- The whole number that a truth value or a whole number counts as. -/
def whole? : Value → Option Int
  | .bool b => some (if b then 1 else 0)
  | .int n => some n
  | _ => Option.none

mutual

/-- Are two values the same key of a map? Numbers are compared by size, whatever their types. -/
def sameKey : Value → Value → Bool
  | .none, .none => true
  | .text s, .text t => s = t
  | .bytes a, .bytes b => a = b
  | .path p, .path q => p = q
  | .tuple a, .tuple b => sameKeys a b
  | .float x, .float y => sameFloat x y
  | .float x, v => (whole? v).any (sameNumber · x)
  | v, .float y => (whole? v).any (sameNumber · y)
  | v, w =>
    match whole? v, whole? w with
    | some m, some n => m = n
    | _, _ => false

def sameKeys : List Value → List Value → Bool
  | [], [] => true
  | v :: vs, w :: ws => sameKey v w && sameKeys vs ws
  | _, _ => false

end

/-- Puts an entry into a map; an entry with the same key keeps its place and its key. -/
def putEntry (key value : Value) : List (Value × Value) → List (Value × Value)
  | [] => [(key, value)]
  | (k, v) :: rest =>
    if sameKey k key then (k, value) :: rest else (k, v) :: putEntry key value rest

/-- A map of entries in order. -/
def ofEntries (entries : List (Value × Value)) : Value :=
  .map (entries.foldl (fun made p => putEntry p.1 p.2 made) [])

/-- The value of a text key of a map. -/
def lookupText (key : String) : List (Value × Value) → Option Value
  | [] => Option.none
  | (k, v) :: rest => if sameKey k (.text key) then some v else lookupText key rest

end Value

end ServerSettings
