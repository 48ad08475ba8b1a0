import ServerSettings.Decimal.Shortest
import ServerSettings.Text.Split

/-!
Decimal texts with a given number of places or of significant digits, rounded from the exact value.
-/

namespace ServerSettings.Binary64

/-- The whole multiple of `10 ^ -places` nearest to `num / den`. -/
def roundedAt (num den : Nat) (places : Int) : Nat :=
  roundDiv (num * Nat.pow 10 places.toNat) (den * Nat.pow 10 (-places).toNat)

/-- `places` digits behind the point; with none there is a point only if `pointed`. -/
def fixedText (num den places : Nat) (pointed : Bool) : List Char :=
  let digits := Text.padLeft '0' (places + 1) (Nat.toDigits 10 (roundedAt num den places))
  let whole := digits.take (digits.length - places)
  if places = 0 then whole ++ (if pointed then ['.'] else [])
  else whole ++ '.' :: digits.drop (digits.length - places)

/-- `count` significant digits and the exponent of the first one. -/
def significant (num den count : Nat) : List Char × Int :=
  if num = 0 then (List.replicate count '0', 0)
  else
    let top := leadingExponent num den
    let n := roundedAt num den (count - 1 - top)
    -- rounding up may give one digit more, and then the last is zero
    if count < digitCount n then (Nat.toDigits 10 (n / 10), top + 1) else (Nat.toDigits 10 n, top)

/-- One digit, a point, `places` digits and an exponent. -/
def scientificText (num den places : Nat) (pointed : Bool) : List Char :=
  let (digits, top) := significant num den (places + 1)
  let tail := exponentText 'e' top
  match digits with
  | [] => tail
  | d :: rest => if places = 0 ∧ !pointed then d :: tail else d :: '.' :: rest ++ tail

def dropTrailingZeros (cs : List Char) : List Char :=
  Text.trimEnd (· = '0') cs

/-- `count` significant digits, written out or with an exponent, whichever the size asks for; zeros at
the end and a point behind the last digit are left out unless `full`. -/
def generalText (num den count : Nat) (full : Bool) : List Char :=
  let count := max 1 count
  let (digits, top) := significant num den count
  let shown := fun (whole fraction : List Char) =>
    let fraction := if full then fraction else dropTrailingZeros fraction
    if fraction.isEmpty ∧ !full then whole else whole ++ '.' :: fraction
  if -4 ≤ top ∧ top < count then
    if top < 0 then shown ['0'] (List.replicate (-top - 1).toNat '0' ++ digits)
    else shown (digits.take (top.toNat + 1)) (digits.drop (top.toNat + 1))
  else
    match digits with
    | [] => []
    | d :: rest => shown [d] rest ++ exponentText 'e' top

end ServerSettings.Binary64
