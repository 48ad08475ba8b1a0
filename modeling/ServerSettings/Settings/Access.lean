import ServerSettings.Settings.Leaf
import ServerSettings.Text.LetterCase
import ServerSettings.Value

/-!
Reading and setting leaves by path. A value of any type may be given: texts are taken as they are,
switches and whole numbers also from a text.
-/

namespace ServerSettings

/-- The text of a value by which switches and whole numbers are told. -/
def Value.canonical : Value → Except NumberFault String
  | .bool b => .ok (if b then "true" else "false")
  | v => v.plain

/-- Texts that turn a switch on: `1`, and `true` in any letter case. -/
def isOn (text : String) : Bool :=
  text = "1" || Text.lower text = "true".toList

/-- Fits a value to a kind of leaf. -/
def coerce (path : String) : (k : Kind) → Value → Except Error k.Content
  | .text, .text s => .ok s
  | .text, v => .error (.coercion path (.notText v.typeName))
  | .whole, .int n => .ok n
  | .whole, v =>
    match v.canonical with
    | .error fault => .error (.number fault)
    | .ok text =>
      if Whole.isNumeral text.toList then (Whole.ofNumeral text.toList).mapError .number
      else .error (.coercion path (.notInteger text))
  | .flag, .bool b => .ok b
  | .flag, v => (v.canonical.map isOn).mapError .number

namespace Settings

/-- The text of a leaf. -/
def leafText (s : Settings) (l : Leaf) : Except Error String :=
  (l.kind.render (l.read s)).mapError .number

/-- The text of the leaf at a path. -/
def get (s : Settings) (path : String) : Except Error String := do
  let l ← Leaf.ofPath path
  s.leafText l

/-- Sets a leaf to a value that is fitted to its kind first. -/
def setLeaf (s : Settings) (l : Leaf) (v : Value) : Except Error Settings := do
  let content ← coerce l.path l.kind v
  l.assign s content

/-- Sets the leaf at a path. -/
def set (s : Settings) (path : String) (v : Value) : Except Error Settings := do
  let l ← Leaf.ofPath path
  s.setLeaf l v

end Settings

end ServerSettings
