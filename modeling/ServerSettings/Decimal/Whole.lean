import ServerSettings.Decimal.Rounding

/-!
Whole numbers and their decimal texts. Both directions refuse numbers of more than 4300 digits, so that
no input can make a conversion take long.
-/

namespace ServerSettings

def digitLimit : Nat := 4300

/-- Why a text of digits is not read, or a number is not written. -/
inductive NumberFault where
  | tooManyDigits (count : Nat)
  | tooLarge
  deriving DecidableEq, Repr

def NumberFault.message : NumberFault → String
  | .tooManyDigits count =>
    "Exceeds the limit (4300 digits) for integer string conversion: value has " ++ toString count ++
      " digits; use sys.set_int_max_str_digits() to increase the limit"
  | .tooLarge =>
    "Exceeds the limit (4300 digits) for integer string conversion; " ++
      "use sys.set_int_max_str_digits() to increase the limit"

namespace Whole

def digits (n : Int) : List Char :=
  let size := Nat.toDigits 10 n.natAbs
  if n < 0 then '-' :: size else size

/-- Can the number be written within the limit? -/
def isWritable (n : Int) : Bool :=
  n.natAbs < Nat.pow 10 digitLimit

def text (n : Int) : Except NumberFault String :=
  if isWritable n then .ok (String.ofList (digits n)) else .error .tooLarge

def isDigit (c : Char) : Bool := '0' ≤ c ∧ c ≤ '9'

/-- The sign in front of a text and what follows it. -/
def sign : List Char → Bool × List Char
  | '-' :: rest => (true, rest)
  | '+' :: rest => (false, rest)
  | rest => (false, rest)

/-- A sign that may be missing and digits, at least one. -/
def isNumeral (cs : List Char) : Bool :=
  let rest := (sign cs).2
  !rest.isEmpty ∧ rest.all isDigit

/-- The value of a numeral. -/
def ofNumeral (cs : List Char) : Except NumberFault Int :=
  let (negative, rest) := sign cs
  if digitLimit < rest.length then .error (.tooManyDigits rest.length)
  else
    let size : Int := Nat.ofDigitChars 10 rest 0
    .ok (if negative then -size else size)

end Whole

end ServerSettings
