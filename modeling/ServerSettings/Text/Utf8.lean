import ServerSettings.Text.Units

/-!
UTF-8: writing characters as bytes, and reading bytes with a choice of what happens at a fault.
-/

namespace ServerSettings.Utf8

inductive Fault where
  | start
  | continuation
  | truncated
  deriving DecidableEq, Repr

def Fault.reason : Fault → String
  | .start => "invalid start byte"
  | .continuation => "invalid continuation byte"
  | .truncated => "unexpected end of data"

/-- What follows a first byte: how many bytes, and the least and greatest the next one may be.
`bits` is what the first byte contributes to the code point. -/
structure Lead where
  tails : Nat
  low : Nat
  high : Nat
  bits : Nat

def lead? (b : Nat) : Option Lead :=
  if b < 0x80 then some ⟨0, 0, 0, b⟩
  else if b < 0xc2 then none
  else if b < 0xe0 then some ⟨1, 0x80, 0xbf, b - 0xc0⟩
  else if b = 0xe0 then some ⟨2, 0xa0, 0xbf, 0⟩
  else if b = 0xed then some ⟨2, 0x80, 0x9f, 0xd⟩
  else if b < 0xf0 then some ⟨2, 0x80, 0xbf, b - 0xe0⟩
  else if b = 0xf0 then some ⟨3, 0x90, 0xbf, 0⟩
  else if b < 0xf4 then some ⟨3, 0x80, 0xbf, b - 0xf0⟩
  else if b = 0xf4 then some ⟨3, 0x80, 0x8f, 4⟩
  else none

/-- The outcome of reading one character: it, or a fault, and how many bytes it takes up. -/
inductive Step where
  | char (c : Char) (length : Nat)
  | fault (f : Fault) (length : Nat)

def tails : (need low high value used : Nat) → List UInt8 → Step
  | 0, _, _, value, used, _ => .char (Char.ofNat value) used
  | _ + 1, _, _, _, used, [] => .fault .truncated used
  | need + 1, low, high, value, used, b :: rest =>
    if low ≤ b.toNat ∧ b.toNat ≤ high then
      tails need 0x80 0xbf (value * 64 + (b.toNat - 0x80)) (used + 1) rest
    else .fault .continuation used

/-- Reads the character that begins with byte `b`. -/
def next (b : UInt8) (rest : List UInt8) : Step :=
  match lead? b.toNat with
  | none => .fault .start 1
  | some l => tails l.tails l.low l.high l.bits 1 rest

/-- A fault, where it begins and the bytes it covers. -/
structure Broken where
  fault : Fault
  position : Nat
  bytes : List UInt8

/-- Reads all bytes. At a fault `mend` gives the character to put there and the bytes to pass over, or
gives up. `skip` bytes belong to a character already read. -/
def decodeWith (mend : List UInt8 → Nat → Option (Char × Nat)) :
    (skip position : Nat) → List UInt8 → Except Broken (List Char)
  | _, _, [] => .ok []
  | skip + 1, position, _ :: rest => decodeWith mend skip (position + 1) rest
  | 0, position, b :: rest =>
    match next b rest with
    | .char c length => (decodeWith mend (length - 1) (position + 1) rest).map (c :: ·)
    | .fault f length =>
      match mend (b :: rest) length with
      | some (c, passed) => (decodeWith mend (passed - 1) (position + 1) rest).map (c :: ·)
      | none => .error ⟨f, position, (b :: rest).take length⟩

/-- Three bytes that spell a surrogate are read as one replacement character. -/
def surrogateMend : List UInt8 → Nat → Option (Char × Nat)
  | a :: b :: c :: _, _ =>
    if a = 0xed ∧ 0xa0 ≤ b ∧ b ≤ 0xbf ∧ 0x80 ≤ c ∧ c ≤ 0xbf then some (Text.replacement, 3) else none
  | _, _ => none

/-- Reads bytes that must be UTF-8, spelled surrogates apart. -/
def decode (bytes : List UInt8) : Except Broken (List Char) :=
  decodeWith surrogateMend 0 0 bytes

/-- Reads any bytes; each fault becomes one replacement character. -/
def decodeLossy (bytes : List UInt8) : List Char :=
  match decodeWith (fun _ length => some (Text.replacement, length)) 0 0 bytes with
  | .ok cs => cs
  | .error _ => []

def encode (cs : List Char) : List UInt8 :=
  cs.flatMap String.utf8EncodeChar

end ServerSettings.Utf8
