import ServerSettings.Text.Split
import ServerSettings.Text.Utf8

/-!
Form encoding: a text in letters, digits and a few marks, with `+` for the space and `%XX` for every
other byte of its UTF-8 form. Decoding undoes it.
-/

namespace ServerSettings.FormEncoding

/-- Characters that stand for themselves. -/
def isPlain (c : Char) : Bool :=
  c.isAlphanum ∨ c = '_' ∨ c = '.' ∨ c = '-' ∨ c = '~'

def upperHexDigit (n : Nat) : Char :=
  if n < 10 then Char.ofNat (n + '0'.toNat) else Char.ofNat (n - 10 + 'A'.toNat)

def percent (b : UInt8) : List Char :=
  ['%', upperHexDigit (b.toNat / 16), upperHexDigit (b.toNat % 16)]

def encodeChar (c : Char) : List Char :=
  if isPlain c then [c]
  else if c = ' ' then ['+']
  else (String.utf8EncodeChar c).flatMap percent

def encode (s : String) : String :=
  String.ofList (s.toList.flatMap encodeChar)

/-- The bytes that an encoded text stands for; a `%` without two digits stands for itself. -/
def decodeBytes : List Char → List UInt8
  | [] => []
  | '%' :: a :: b :: rest =>
    match Text.hexValue? a, Text.hexValue? b with
    | some high, some low => UInt8.ofNat (high * 16 + low) :: decodeBytes rest
    | _, _ => '%'.toNat.toUInt8 :: decodeBytes (a :: b :: rest)
  | c :: rest => (if c = '+' then [0x20] else String.utf8EncodeChar c) ++ decodeBytes rest

def decode (s : String) : List Char :=
  Utf8.decodeLossy (decodeBytes s.toList)

end ServerSettings.FormEncoding
