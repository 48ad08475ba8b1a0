import ServerSettings.Decimal.Binary64
import ServerSettings.Text.Split

/-!
Times as text in Universal Time: seconds since 1970 to a date and a time of day in milliseconds.
-/

namespace ServerSettings.Timestamp

inductive Fault where
  | notANumber
  | beyondClock
  | beyondCalendar
  | year (n : Int)
  deriving DecidableEq, Repr

def Fault.message : Fault → String
  | .notANumber => "Invalid value NaN (not a number)"
  | .beyondClock => "timestamp out of range for platform time_t"
  | .beyondCalendar => "[Errno 75] Value too large for defined data type"
  | .year n => "year " ++ toString n ++ " is out of range"

/-- The name of the class of failures that a fault belongs to. -/
def Fault.title : Fault → String
  | .notANumber | .year _ => "ValueError"
  | .beyondClock => "OverflowError"
  | .beyondCalendar => "OSError"

/-- Microseconds of a part of a second: the product as a double, with a half going to the even one. -/
def microsOf (num den : Nat) : Nat :=
  match Binary64.ofRatio false (num * 1000000) den with
  | .finite _ m e =>
    let (num, den) := Binary64.ratio m e
    roundDiv num den
  | _ => 0

/-- Whole microseconds since 1970. -/
def micros : Binary64 → Except Fault Int
  | .nan => .error .notANumber
  | .infinite _ => .error .beyondClock
  | .finite negative m e =>
    let (num, den) := Binary64.ratio m e
    let size : Int := (num / den * 1000000 + microsOf (num % den) den : Nat)
    .ok (if negative then -size else size)

structure Date where
  year : Int
  month : Nat
  day : Nat
  deriving DecidableEq, Repr

/-- The date of a day counted from 1970-01-01. Years are counted from March, so that a leap day is the
last of its year; 400 of them have 146097 days. -/
def dateOf (days : Int) : Date :=
  let shifted := days + 719468
  let era := shifted.fdiv 146097
  let day := (shifted.fmod 146097).toNat
  let year := (day - day / 1460 + day / 36524 - day / 146096) / 365
  let dayOfYear := day - (365 * year + year / 4 - year / 100)
  let month := (5 * dayOfYear + 2) / 153
  { year := year + era * 400 + (if 10 ≤ month then 1 else 0)
    month := if month < 10 then month + 3 else month - 9
    day := dayOfYear - (153 * month + 2) / 5 + 1 }

def pad (width n : Nat) : List Char :=
  Text.padLeft '0' width (Nat.toDigits 10 n)

/-- The text of a time given in microseconds, cut to milliseconds. -/
def ofMicros (total : Int) : Except Fault String :=
  let seconds := total.fdiv 1000000
  let part := (total.fmod 1000000).toNat
  let date := dateOf (seconds.fdiv 86400)
  let clock := (seconds.fmod 86400).toNat
  if Int.pow 2 63 ≤ seconds ∨ seconds < -Int.pow 2 63 then .error .beyondClock
  else if Int.pow 2 31 + 1900 ≤ date.year ∨ date.year < 1900 - Int.pow 2 31 then .error .beyondCalendar
  else if date.year < 1 ∨ 9999 < date.year then .error (.year date.year)
  else
    .ok (String.ofList (pad 4 date.year.toNat ++ '-' :: pad 2 date.month ++ '-' :: pad 2 date.day ++
      'T' :: pad 2 (clock / 3600) ++ ':' :: pad 2 (clock / 60 % 60) ++ ':' :: pad 2 (clock % 60) ++
      '.' :: pad 3 (part / 1000) ++ ['Z']))

/-- The text of a time in seconds since 1970. -/
def text (seconds : Binary64) : Except Fault String := do
  ofMicros (← micros seconds)

end ServerSettings.Timestamp
