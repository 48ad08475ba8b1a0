import ServerSettings.Decimal.Binary64

/-!
The shortest decimal that reads back as a given double precision number, and its text.
-/

namespace ServerSettings.Binary64

/-- A positive number `value / scale` with the bounds of the interval of numbers that round to it. The
bounds themselves round to it when `closed`. -/
structure Neighbourhood where
  scale : Nat
  low : Nat
  value : Nat
  high : Nat
  closed : Bool

/-- The interval reaches half way to the next value on either side; below a power of two the next
value is half as far away. -/
def neighbourhood (mantissa : Nat) (exponent : Int) : Neighbourhood :=
  let e := exponent - 2
  let times := Nat.pow 2 e.toNat
  let below := if mantissa = Nat.pow 2 52 ∧ least < exponent then 1 else 2
  { scale := Nat.pow 2 (-e).toNat
    low := (4 * mantissa - below) * times
    value := 4 * mantissa * times
    high := (4 * mantissa + 2) * times
    closed := mantissa % 2 = 0 }

/-- Does `digits * 10 ^ exponent` round to the number? -/
def Neighbourhood.holds (n : Neighbourhood) (digits : Nat) (exponent : Int) : Bool :=
  let num := digits * Nat.pow 10 exponent.toNat * n.scale
  let den := Nat.pow 10 (-exponent).toNat
  if n.closed then n.low * den ≤ num ∧ num ≤ n.high * den
  else n.low * den < num ∧ num < n.high * den

/-- Among the multiples of `10 ^ exponent` next to the number, the nearest that rounds to it; of two
equally near ones the even one. -/
def Neighbourhood.onGrid? (n : Neighbourhood) (exponent : Int) : Option Nat :=
  let num := n.value * Nat.pow 10 (-exponent).toNat
  let den := n.scale * Nat.pow 10 exponent.toNat
  let nearest := roundDiv num den
  let lower := num / den
  let upper := lower + 1
  if n.holds nearest exponent then some nearest
  else if n.holds lower exponent then some lower
  else if n.holds upper exponent then some upper
  else none

/-- The first grid with a hit, from one significant digit to seventeen. -/
def Neighbourhood.shortest (n : Neighbourhood) (top : Int) : (left digits : Nat) → Nat × Int
  | 0, _ => (0, 0)
  | left + 1, digits =>
    let exponent := top - digits + 1
    match n.onGrid? exponent with
    | some d => (d, exponent)
    | none => n.shortest top left (digits + 1)

/-- Digits without trailing zeros, and the exponent that goes with them. -/
def dropZeros : (fuel : Nat) → Nat × Int → Nat × Int
  | 0, p => p
  | fuel + 1, (d, e) => if d ≠ 0 ∧ d % 10 = 0 then dropZeros fuel (d / 10, e + 1) else (d, e)

/-- Decimal digits and exponent of a positive finite value. -/
def shortest (mantissa : Nat) (exponent : Int) : Nat × Int :=
  let n := neighbourhood mantissa exponent
  dropZeros 20 (n.shortest (leadingExponent n.value n.scale) 17 1)

/-- Digits with a point behind the first `places` of them; zeros fill up either side. -/
def positional (digits : List Char) (places : Int) : List Char :=
  if places ≤ 0 then '0' :: '.' :: (List.replicate (-places).toNat '0' ++ digits)
  else
    let n := places.toNat
    if digits.length ≤ n then digits ++ List.replicate (n - digits.length) '0' ++ ['.', '0']
    else digits.take n ++ '.' :: digits.drop n

/-- An exponent with its sign and at least two digits. -/
def exponentText (mark : Char) (e : Int) : List Char :=
  let digits := Nat.toDigits 10 e.natAbs
  mark :: (if e < 0 then '-' else '+') :: (if digits.length < 2 then '0' :: digits else digits)

/-- Digits with a point behind the first one, unless there is only one, and an exponent. -/
def scientific (digits : List Char) (top : Int) : List Char :=
  match digits with
  | [] => []
  | [d] => d :: exponentText 'e' top
  | d :: rest => d :: '.' :: rest ++ exponentText 'e' top

/-- Numbers from `10 ^ -4` up to `10 ^ 16` are written out; others have an exponent. -/
def magnitudeText (mantissa : Nat) (exponent : Int) : List Char :=
  if mantissa = 0 then ['0', '.', '0']
  else
    let (d, e) := shortest mantissa exponent
    let digits := Nat.toDigits 10 d
    let top := e + digits.length - 1
    if -4 ≤ top ∧ top < 16 then positional digits (top + 1) else scientific digits top

def signText (negative : Bool) : List Char :=
  if negative then ['-'] else []

/-- The text of a number; a whole one keeps `.0`. -/
def text : Binary64 → String
  | .finite negative m e => String.ofList (signText negative ++ magnitudeText m e)
  | .infinite negative => if negative then "-inf" else "inf"
  | .nan => "nan"

end ServerSettings.Binary64
