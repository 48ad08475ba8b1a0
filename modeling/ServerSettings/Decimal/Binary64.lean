import ServerSettings.Decimal.Rounding

/-!
Double precision numbers as exact values, so that reading, writing and rounding are arithmetic on
natural numbers.
-/

namespace ServerSettings

/-- A finite value is `mantissa * 2 ^ exponent`, with a sign that zero has too. -/
inductive Binary64 where
  | finite (negative : Bool) (mantissa : Nat) (exponent : Int)
  | infinite (negative : Bool)
  | nan
  deriving DecidableEq, Repr

namespace Binary64

def least : Int := -1074

def zero (negative : Bool := false) : Binary64 := .finite negative 0 least

/-- A value with the exponent that the format gives it; beyond the greatest it is infinite. -/
def pack (negative : Bool) (mantissa : Nat) (exponent : Int) : Binary64 :=
  let carried := mantissa = Nat.pow 2 53
  let m := if carried then Nat.pow 2 52 else mantissa
  let e := if carried then exponent + 1 else exponent
  if 971 < e then .infinite negative else .finite negative m e

/-- The value nearest to `num / den`, with a half going to the even mantissa. -/
def ofRatio (negative : Bool) (num den : Nat) : Binary64 :=
  if num = 0 then zero negative
  else
    let scaled := fun e : Int => (num * Nat.pow 2 (-e).toNat, den * Nat.pow 2 e.toNat)
    let guess : Int := (Nat.log2 num : Int) - Nat.log2 den - 52
    let e := if (scaled guess).1 / (scaled guess).2 < Nat.pow 2 52 then guess - 1 else guess
    let e := max least e
    pack negative (roundDiv (scaled e).1 (scaled e).2) e

/-- The value nearest to `digits * 10 ^ exponent`. -/
def ofDecimal (negative : Bool) (digits : Nat) (exponent : Int) : Binary64 :=
  let top : Int := digitCount digits + exponent
  if digits = 0 ∨ top < -330 then zero negative
  else if 310 < top then .infinite negative
  else ofRatio negative (digits * Nat.pow 10 exponent.toNat) (Nat.pow 10 (-exponent).toNat)

/-- The value of a whole number, if it is within range. -/
def ofInt (n : Int) : Binary64 :=
  ofRatio (n < 0) n.natAbs 1

def isNegative : Binary64 → Bool
  | .finite negative _ _ => negative
  | .infinite negative => negative
  | .nan => false

def isFinite : Binary64 → Bool
  | .finite _ _ _ => true
  | _ => false

/-- Numerator and denominator of the size of a finite value. -/
def ratio (mantissa : Nat) (exponent : Int) : Nat × Nat :=
  (mantissa * Nat.pow 2 exponent.toNat, Nat.pow 2 (-exponent).toNat)

/-- The whole part of a finite value. -/
def truncate? : Binary64 → Option Int
  | .finite negative m e =>
    let whole : Int := (ratio m e).1 / (ratio m e).2
    some (if negative then -whole else whole)
  | _ => none

end Binary64

end ServerSettings
