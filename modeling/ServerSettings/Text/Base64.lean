/-!
Base64 with the standard alphabet. Writing pads to whole groups of four; reading is strict about the
alphabet and about what follows padding.
-/

namespace ServerSettings.Base64

/-- The six-bit value of a character of the alphabet. -/
def sextet? (c : Char) : Option Nat :=
  if 'A' ≤ c ∧ c ≤ 'Z' then some (c.toNat - 'A'.toNat)
  else if 'a' ≤ c ∧ c ≤ 'z' then some (c.toNat - 'a'.toNat + 26)
  else if '0' ≤ c ∧ c ≤ '9' then some (c.toNat - '0'.toNat + 52)
  else if c = '+' then some 62
  else if c = '/' then some 63
  else none

/-- The character of the alphabet with a six-bit value. -/
def char (n : Nat) : Char :=
  if n < 26 then Char.ofNat (n + 'A'.toNat)
  else if n < 52 then Char.ofNat (n - 26 + 'a'.toNat)
  else if n < 62 then Char.ofNat (n - 52 + '0'.toNat)
  else if n = 62 then '+'
  else '/'

theorem sextet?_char {n : Nat} (h : n < 64) : sextet? (char n) = some n := by
  revert n
  decide

def encodeChars : List UInt8 → List Char
  | [] => []
  | [a] => [char (a.toNat / 4), char (a.toNat % 4 * 16), '=', '=']
  | [a, b] => [char (a.toNat / 4), char (a.toNat % 4 * 16 + b.toNat / 16), char (b.toNat % 16 * 4), '=']
  | a :: b :: c :: rest =>
    char (a.toNat / 4) :: char (a.toNat % 4 * 16 + b.toNat / 16) ::
      char (b.toNat % 16 * 4 + c.toNat / 64) :: char (c.toNat % 64) :: encodeChars rest

def encode (bytes : List UInt8) : String :=
  String.ofList (encodeChars bytes)

/-- How far a reader is: `count` characters of the current group of four are read, `held` is what they
hold beyond the bytes already given out, and `padding` counts the pads behind them once `padded`. -/
structure Group where
  count : Nat := 0
  held : Nat := 0
  padding : Nat := 0
  padded : Bool := false

/-- Takes in one six-bit value: the byte it completes, if any, and the group after it. -/
def Group.take (g : Group) (v : Nat) : List UInt8 × Group :=
  if g.count = 0 then ([], { count := 1, held := v })
  else if g.count = 1 then ([UInt8.ofNat (g.held * 4 + v / 16)], { count := 2, held := v % 16 })
  else if g.count = 2 then ([UInt8.ofNat (g.held * 16 + v / 4)], { count := 3, held := v % 4 })
  else ([UInt8.ofNat (g.held * 64 + v)], {})

/-- Reads characters. A pad that completes a group of two or three characters must be the last
character; a pad anywhere else is passed over, and only pads may follow it. -/
def decodeFrom (g : Group) : List Char → Option (List UInt8)
  | [] => if g.count = 0 then some [] else none
  | c :: rest =>
    if c = '=' then
      if 2 ≤ g.count ∧ 4 ≤ g.count + (g.padding + 1) then (if rest.isEmpty then some [] else none)
      else
        decodeFrom { g with padded := true, padding := g.padding + (if 2 ≤ g.count then 1 else 0) } rest
    else
      match sextet? c with
      | none => none
      | some v =>
        if g.padded then none
        else (decodeFrom (g.take v).2 rest).map ((g.take v).1 ++ ·)

/-- The bytes that a text stands for; a text that begins with a pad stands for none. -/
def decode? (s : String) : Option (List UInt8) :=
  if s.toList.head? = some '=' then none else decodeFrom {} s.toList

end ServerSettings.Base64
