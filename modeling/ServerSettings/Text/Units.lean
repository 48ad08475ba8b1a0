/-!
UTF-16 code units. A pair of surrogates is one character; a surrogate that stands alone is no
character and reads as the replacement character.
-/

namespace ServerSettings.Text

def replacement : Char := Char.ofNat 0xfffd

def isHighSurrogate (u : Nat) : Bool := 0xd800 ≤ u ∧ u < 0xdc00
def isLowSurrogate (u : Nat) : Bool := 0xdc00 ≤ u ∧ u < 0xe000

/-- The character of one unit. -/
def unitChar (u : Nat) : Char :=
  if isHighSurrogate u ∨ isLowSurrogate u then replacement else Char.ofNat u

def pairChar (high low : Nat) : Char :=
  Char.ofNat (0x10000 + (high - 0xd800) * 0x400 + (low - 0xdc00))

/-- The characters of a text in units; units above the surrogates stand for themselves. -/
def ofUnits : List Nat → List Char
  | [] => []
  | [u] => [unitChar u]
  | u :: v :: rest =>
    if isHighSurrogate u ∧ isLowSurrogate v then pairChar u v :: ofUnits rest
    else unitChar u :: ofUnits (v :: rest)

theorem not_surrogate (c : Char) : isHighSurrogate c.toNat = false ∧ isLowSurrogate c.toNat = false := by
  have h := c.valid
  simp only [isHighSurrogate, isLowSurrogate, decide_eq_false_iff_not, Char.toNat]
  simp only [UInt32.isValidChar, Nat.isValidChar] at h
  omega

theorem unitChar_toNat (c : Char) : unitChar c.toNat = c := by
  simp [unitChar, not_surrogate c, Char.ofNat_toNat]

/-- Characters are read back from their own code points. -/
theorem ofUnits_map_toNat (cs : List Char) : ofUnits (cs.map Char.toNat) = cs := by
  match cs with
  | [] => rfl
  | [c] => simp [ofUnits, unitChar_toNat]
  | c :: d :: rest =>
    have ih := ofUnits_map_toNat (d :: rest)
    simp only [List.map_cons] at ih
    simp [ofUnits, not_surrogate c, unitChar_toNat, ih]

end ServerSettings.Text
