import ServerSettings.Resolution.Layers
import ServerSettings.Tables
import ServerSettings.Text.Base64

/-!
Fresh keys for cookies and for stored access keys.
-/

namespace ServerSettings

/-- Random bytes: what the `call`-th call gives when `length` bytes are asked for. -/
abbrev RandomSource := (call length : Nat) → List UInt8

namespace Keys

def keyLength : Nat := 32

/-- A key of some length. The source must give exactly as many bytes. -/
def generate (source : Nat → List UInt8) (length : Int) : Except Error (List UInt8) :=
  if length ≤ 0 then .error .noKeyLength
  else
    let key := source length.toNat
    if key.length = length.toNat then .ok key else .error (.randomLength key.length length.toNat)

def replaceKey (source : RandomSource) (f : TextSetting) (call : Nat) : Edit Unit := do
  let key ← Edit.ofExcept (generate (source call) keyLength)
  Edit.change fun s => (Leaf.text f).assign s (Base64.encode key)

/-- Replaces every key, the first call for the first one. -/
def replaceAll (source : RandomSource) : Edit Unit :=
  Tables.keys.zipIdx.forM fun p => replaceKey source p.1 p.2

end Keys

end ServerSettings
