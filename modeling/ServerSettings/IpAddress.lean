import ServerSettings.Text.Split

/-!
Internet addresses as text: which texts are addresses, of version 4 or of version 6.
-/

namespace ServerSettings.IpAddress

inductive Version where
  | four
  | six
  deriving DecidableEq, Repr

/-- A decimal number up to 255 without superfluous zeros. -/
def isOctet (cs : List Char) : Bool :=
  !cs.isEmpty && cs.all Char.isDigit && cs.length ≤ 3 && (cs = ['0'] || cs.head? ≠ some '0') &&
    Nat.ofDigitChars 10 cs 0 ≤ 255

/-- Four octets with points between them. -/
def isVersion4 (cs : List Char) : Bool :=
  let octets := Text.split '.' cs
  octets.length = 4 && octets.all isOctet

/-- One to four hexadecimal digits. -/
def isHextet (cs : List Char) : Bool :=
  !cs.isEmpty && cs.length ≤ 4 && cs.all fun c => (Text.hexValue? c).isSome

/-- The address without the zone behind a `%`, if that is neither empty nor divided again. -/
def withoutZone? (cs : List Char) : Option (List Char) :=
  match Text.cut? '%' cs with
  | none => some cs
  | some (address, zone) => if zone.isEmpty ∨ '%' ∈ zone then none else some address

/-- The parts between colons; an address of version 4 at the end counts as two. -/
def parts? (cs : List Char) : Option (List (List Char)) :=
  let parts := Text.split ':' cs
  let last := parts.getLast?.getD []
  if parts.length < 3 then none
  else if '.' ∈ last then
    if isVersion4 last then some (parts.dropLast ++ [['0'], ['0']]) else none
  else some parts

/-- Where the inner parts are empty, which stands for a run of zeros. -/
def gaps (parts : List (List Char)) : List Nat :=
  (List.range parts.length).filter fun i =>
    0 < i && i + 1 < parts.length && (parts[i]?.getD []).isEmpty

/-- Parts on one side of a gap. The end away from the gap may be empty only if it is all there is. -/
def sideLength? (side : List (List Char)) (outer : Option (List Char)) : Option Nat :=
  if outer = some [] then (if side.length = 1 then some 0 else none)
  else if side.all isHextet then some side.length else none

/-- Eight hextets, or fewer on both sides of one gap. -/
def isVersion6 (cs : List Char) : Bool :=
  match (withoutZone? cs).bind parts? with
  | none => false
  | some parts =>
    match gaps parts with
    | [] => parts.length = 8 && parts.all isHextet
    | [gap] =>
      let before := parts.take gap
      let after := parts.drop (gap + 1)
      match sideLength? before before.head?, sideLength? after after.getLast? with
      | some high, some low => parts.length ≤ 9 && high + low < 8
      | _, _ => false
    | _ => false

def version? (cs : List Char) : Option Version :=
  if isVersion4 cs then some .four
  else if isVersion6 cs then some .six
  else none

end ServerSettings.IpAddress
