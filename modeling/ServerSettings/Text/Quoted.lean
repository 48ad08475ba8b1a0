import ServerSettings.Text.Printable
import ServerSettings.Text.Split

/-!
Quoted texts: how messages show a text or a run of bytes, so that no character of it can be taken for
a character of the message.
-/

namespace ServerSettings.Text

/-- The quote that stands around a text: the single one, unless it occurs inside and the double one
does not. -/
def quoteFor (cs : List Char) : Char :=
  if '\x27' ∈ cs ∧ '\x22' ∉ cs then '\x22' else '\x27'

/-- A character by its code point, in the shortest of three forms. -/
def codePointEscape (c : Char) : List Char :=
  if c.toNat ≤ 0xff then '\\' :: 'x' :: hex 2 c.toNat
  else if c.toNat ≤ 0xffff then '\\' :: 'u' :: hex 4 c.toNat
  else '\\' :: 'U' :: hex 8 c.toNat

/-- One character between quotes: `keep` says which characters stand as they are. -/
def quotedChar (keep : Char → Bool) (quote c : Char) : List Char :=
  if c = quote ∨ c = '\\' then ['\\', c]
  else if c = '\t' then ['\\', 't']
  else if c = '\n' then ['\\', 'n']
  else if c = '\r' then ['\\', 'r']
  else if keep c then [c]
  else codePointEscape c

def quotedWith (keep : Char → Bool) (s : String) : String :=
  let quote := quoteFor s.toList
  String.ofList (quote :: s.toList.flatMap (quotedChar keep quote) ++ [quote])

/-- A text in quotes; what is not printable is written by its code point. -/
def quoted (s : String) : String :=
  quotedWith isPrintable s

/-- A quoted text of ASCII characters only. -/
def quotedAscii (s : String) : String :=
  quotedWith (fun c => 0x20 ≤ c.toNat ∧ c.toNat < 0x7f) s

/-- Bytes in quotes with a `b` in front, every byte outside printable ASCII by its value. -/
def quotedBytes (bytes : List UInt8) : String :=
  let cs := bytes.map fun b => Char.ofNat b.toNat
  let quote := quoteFor cs
  let keep := fun c : Char => 0x20 ≤ c.toNat ∧ c.toNat < 0x7f
  String.ofList ('b' :: quote :: cs.flatMap (quotedChar (fun c => keep c) quote) ++ [quote])

end ServerSettings.Text
