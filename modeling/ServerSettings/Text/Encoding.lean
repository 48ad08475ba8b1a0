import ServerSettings.Text.Split
import ServerSettings.Text.Utf8

/-!
Finding out in which Unicode encoding a document is written, from a byte order mark or from where its
first zero bytes stand, and reading it.
-/

namespace ServerSettings

inductive ByteOrder where
  | little
  | big
  deriving DecidableEq, Repr

/-- `marked` says that the document begins with a byte order mark, which is no part of the text. -/
inductive Encoding where
  | utf8 (marked : Bool)
  | utf16 (order : ByteOrder) (marked : Bool)
  | utf32 (order : ByteOrder) (marked : Bool)
  deriving DecidableEq, Repr

namespace Encoding

/-- By its mark, if it has one: the longer marks are looked for first. -/
def ofMark? : List UInt8 → Option Encoding
  | 0 :: 0 :: 0xfe :: 0xff :: _ => some (.utf32 .big true)
  | 0xff :: 0xfe :: 0 :: 0 :: _ => some (.utf32 .little true)
  | 0xfe :: 0xff :: _ => some (.utf16 .big true)
  | 0xff :: 0xfe :: _ => some (.utf16 .little true)
  | 0xef :: 0xbb :: 0xbf :: _ => some (.utf8 true)
  | _ => none

/-- By the zero bytes among the first four, as a document begins with an ASCII character. -/
def ofZeros : List UInt8 → Encoding
  | a :: b :: c :: d :: _ =>
    if a = 0 then (if b = 0 then .utf32 .big false else .utf16 .big false)
    else if b = 0 then (if c = 0 ∧ d = 0 then .utf32 .little false else .utf16 .little false)
    else .utf8 false
  | [a, b] =>
    if a = 0 then .utf16 .big false
    else if b = 0 then .utf16 .little false
    else .utf8 false
  | _ => .utf8 false

def detect (bytes : List UInt8) : Encoding :=
  (ofMark? bytes).getD (ofZeros bytes)

/-- Bytes that are no text in their encoding. -/
structure Broken where
  codec : String
  reason : String
  position : Nat
  bytes : List UInt8

def Broken.message (b : Broken) : String :=
  let place :=
    match b.bytes with
    | [byte] => "byte 0x" ++ String.ofList (Text.hex 2 byte.toNat) ++ " in position " ++ toString b.position
    | bytes => "bytes in position " ++ toString b.position ++ "-" ++
        toString (b.position + bytes.length - 1)
  "'" ++ b.codec ++ "' codec can't decode " ++ place ++ ": " ++ b.reason

def ByteOrder.suffix : ByteOrder → String
  | .little => "le"
  | .big => "be"

def unit16 (order : ByteOrder) (a b : UInt8) : Nat :=
  match order with
  | .little => a.toNat + 256 * b.toNat
  | .big => 256 * a.toNat + b.toNat

def units16 (order : ByteOrder) (position : Nat) : List UInt8 → Except Broken (List Nat)
  | [] => .ok []
  | [a] => .error ⟨"utf-16-" ++ ByteOrder.suffix order, "truncated data", position, [a]⟩
  | a :: b :: rest => (units16 order (position + 2) rest).map (unit16 order a b :: ·)

def unit32 (order : ByteOrder) (a b c d : UInt8) : Nat :=
  match order with
  | .little => unit16 .little a b + 65536 * unit16 .little c d
  | .big => 65536 * unit16 .big a b + unit16 .big c d

def chars32 (order : ByteOrder) (position : Nat) : List UInt8 → Except Broken (List Char)
  | [] => .ok []
  | a :: b :: c :: d :: rest =>
    let u := unit32 order a b c d
    if u < 0x110000 then (chars32 order (position + 4) rest).map (Text.unitChar u :: ·)
    else .error ⟨"utf-32-" ++ ByteOrder.suffix order, "code point not in range(0x110000)", position, [a, b, c, d]⟩
  | bytes => .error ⟨"utf-32-" ++ ByteOrder.suffix order, "truncated data", position, bytes⟩

/-- Reads a document. Positions count from the first byte, except that a mark in front of UTF-8 is not
counted. -/
def decode (bytes : List UInt8) : Encoding → Except Broken (List Char)
  | .utf8 marked =>
    (Utf8.decode (if marked then bytes.drop 3 else bytes)).mapError fun b =>
      ⟨"utf-8", b.fault.reason, b.position, b.bytes⟩
  | .utf16 order marked =>
    let mark := if marked then 2 else 0
    (units16 order mark (bytes.drop mark)).map Text.ofUnits
  | .utf32 order marked =>
    let mark := if marked then 4 else 0
    chars32 order mark (bytes.drop mark)

/-- Reads a document in the encoding that it shows. -/
def decodeDetected (bytes : List UInt8) : Except Broken (List Char) :=
  decode bytes (detect bytes)

end Encoding

end ServerSettings
