import ServerSettings.Decimal.Whole
import ServerSettings.Json.Basic
import ServerSettings.Text.Split
import ServerSettings.Text.Units

/-!
Reading JSON text. A fault says what was expected and keeps the text from the place where it was found,
so that its line, column and position can be told.
-/

namespace ServerSettings.Json

inductive Expectation where
  | value
  | name
  | colon
  | comma
  | theEnd
  | closingQuote
  | escape
  | codeUnit
  | plainCharacter
  | noMark
  deriving DecidableEq, Repr

def Expectation.text : Expectation → String
  | .value => "Expecting value"
  | .name => "Expecting property name enclosed in double quotes"
  | .colon => "Expecting ':' delimiter"
  | .comma => "Expecting ',' delimiter"
  | .theEnd => "Extra data"
  | .closingQuote => "Unterminated string starting at"
  | .escape => "Invalid \\escape"
  | .codeUnit => "Invalid \\uXXXX escape"
  | .plainCharacter => "Invalid control character at"
  | .noMark => "Unexpected UTF-8 BOM (decode using utf-8-sig)"

inductive Container where
  | object
  | array
  deriving DecidableEq, Repr

inductive Fault where
  | malformed (expected : Expectation) (rest : List Char)
  | tooManyDigits (count : Nat)
  | tooDeep (container : Container)

/-- How deep values may be nested and how many digits a whole number may have, if that is limited. -/
structure Limits where
  depth : Nat := 990
  digits : Option Nat := some digitLimit

abbrev Read (α : Type) := Except Fault (α × List Char)

def isBlank (c : Char) : Bool :=
  c = ' ' ∨ c = '\t' ∨ c = '\n' ∨ c = '\r'

def skipBlank (cs : List Char) : List Char :=
  cs.dropWhile isBlank

/-- The characters that an escape of one letter stands for. -/
def shortEscape? (c : Char) : Option Char :=
  if c = '"' ∨ c = '\\' ∨ c = '/' then some c
  else if c = 'b' then some '\x08'
  else if c = 'f' then some '\x0c'
  else if c = 'n' then some '\n'
  else if c = 'r' then some '\r'
  else if c = 't' then some '\t'
  else none

def codeUnit? (a b c d : Char) : Option Nat := do
  let a ← Text.hexValue? a
  let b ← Text.hexValue? b
  let c ← Text.hexValue? c
  let d ← Text.hexValue? d
  return ((a * 16 + b) * 16 + c) * 16 + d

/-- The code units of a string and the text behind its closing quote; `start` begins with the opening
one. A code unit escape must have a character behind it. -/
def readUnits (start : List Char) : List Char → Read (List Nat)
  | [] => .error (.malformed .closingQuote start)
  | '"' :: rest => .ok ([], rest)
  | ['\\'] => .error (.malformed .closingQuote start)
  | '\\' :: 'u' :: a :: b :: c :: d :: rest =>
    match codeUnit? a b c d with
    | some u =>
      if rest.isEmpty then .error (.malformed .codeUnit ('u' :: a :: b :: c :: d :: rest))
      else (readUnits start rest).map fun p => (u :: p.1, p.2)
    | none => .error (.malformed .codeUnit ('u' :: a :: b :: c :: d :: rest))
  | '\\' :: c :: rest =>
    if c = 'u' then .error (.malformed .codeUnit (c :: rest))
    else
      match shortEscape? c with
      | some e => (readUnits start rest).map fun p => (e.toNat :: p.1, p.2)
      | none => .error (.malformed .escape ('\\' :: c :: rest))
  | c :: rest =>
    if c.toNat < 0x20 then .error (.malformed .plainCharacter (c :: rest))
    else (readUnits start rest).map fun p => (c.toNat :: p.1, p.2)

/-- A string whose opening quote has been passed. -/
def readString (start rest : List Char) : Read String :=
  (readUnits start rest).map fun p => (String.ofList (Text.ofUnits p.1), p.2)

/-- Words that are values. -/
def words : List (String × Json) :=
  [("null", .null), ("true", .bool true), ("false", .bool false), ("NaN", .float .nan),
   ("Infinity", .float (.infinite false)), ("-Infinity", .float (.infinite true))]

def readWord? (cs : List Char) : Option (Json × List Char) :=
  words.findSome? fun w => (Text.after? w.1.toList cs).map fun rest => (w.2, rest)

/-- The digits in front of a text, and the text behind them. -/
def spanDigits (cs : List Char) : List Char × List Char :=
  (cs.takeWhile Whole.isDigit, cs.dropWhile Whole.isDigit)

/-- The digits behind a point, if a point with a digit is next. -/
def readFraction : List Char → Option (List Char × List Char)
  | '.' :: c :: rest => if Whole.isDigit c then some (spanDigits (c :: rest)) else none
  | _ => none

/-- The exponent, if a mark, a sign that may be missing and a digit are next. -/
def readExponent : List Char → Option (Int × List Char)
  | mark :: rest =>
    if mark = 'e' ∨ mark = 'E' then
      let (negative, rest) :=
        match rest with
        | '-' :: r => (true, r)
        | '+' :: r => (false, r)
        | r => (false, r)
      let (digits, rest) := spanDigits rest
      if digits.isEmpty then none
      else
        let size : Int := Nat.ofDigitChars 10 digits 0
        some (if negative then -size else size, rest)
    else none
  | [] => none

/-- The whole part of a number: a zero alone, or digits that begin with none. -/
def readWhole : List Char → Option (List Char × List Char)
  | '0' :: rest => some (['0'], rest)
  | c :: rest => if Whole.isDigit c then some (spanDigits (c :: rest)) else none
  | [] => none

def readNumber (limits : Limits) (cs : List Char) : Read Json :=
  let (negative, unsigned) :=
    match cs with
    | '-' :: rest => (true, rest)
    | rest => (false, rest)
  match readWhole unsigned with
  | none => .error (.malformed .value cs)
  | some (whole, rest) =>
    let fraction := readFraction rest
    let (places, rest) := fraction.getD ([], rest)
    let power := readExponent rest
    let (exponent, rest) := power.getD (0, rest)
    if fraction.isSome ∨ power.isSome then
      let digits := Nat.ofDigitChars 10 (whole ++ places) 0
      .ok (.float (.ofDecimal negative digits (exponent - places.length)), rest)
    else if limits.digits.any (· < whole.length) then .error (.tooManyDigits whole.length)
    else
      let size : Int := Nat.ofDigitChars 10 whole 0
      .ok (.int (if negative then -size else size), rest)

mutual

/-- Reads a value that begins at once; `fuel` bounds the steps. -/
def readValue (limits : Limits) : (fuel depth : Nat) → List Char → Read Json
  | 0, _, cs => .error (.malformed .value cs)
  | fuel + 1, depth, cs =>
    match cs with
    | '"' :: rest => (readString cs rest).map fun p => (.str p.1, p.2)
    | '{' :: rest =>
      if depth = 0 then .error (.tooDeep .object)
      else
        match skipBlank rest with
        | '}' :: rest => .ok (.obj [], rest)
        | rest => (readMembers limits fuel (depth - 1) rest).map fun p => (.obj (Dict.ofList p.1), p.2)
    | '[' :: rest =>
      if depth = 0 then .error (.tooDeep .array)
      else
        match skipBlank rest with
        | ']' :: rest => .ok (.arr [], rest)
        | rest => (readItems limits fuel (depth - 1) rest).map fun p => (.arr p.1, p.2)
    | cs =>
      match readWord? cs with
      | some p => .ok p
      | none => readNumber limits cs

/-- Reads members up to the closing brace, in the order of the text. -/
def readMembers (limits : Limits) : (fuel depth : Nat) → List Char →
    Except Fault (List (String × Json) × List Char)
  | 0, _, cs => .error (.malformed .name cs)
  | fuel + 1, depth, cs =>
    match cs with
    | '"' :: rest => do
      let (key, rest) ← readString cs rest
      match skipBlank rest with
      | ':' :: rest =>
        let (value, rest) ← readValue limits fuel depth (skipBlank rest)
        match skipBlank rest with
        | '}' :: rest => .ok ([(key, value)], rest)
        | ',' :: rest =>
          let (more, rest) ← readMembers limits fuel depth (skipBlank rest)
          .ok ((key, value) :: more, rest)
        | rest => .error (.malformed .comma rest)
      | rest => .error (.malformed .colon rest)
    | cs => .error (.malformed .name cs)

/-- Reads elements up to the closing bracket. -/
def readItems (limits : Limits) : (fuel depth : Nat) → List Char →
    Except Fault (List Json × List Char)
  | 0, _, cs => .error (.malformed .value cs)
  | fuel + 1, depth, cs => do
    let (item, rest) ← readValue limits fuel depth cs
    match skipBlank rest with
    | ']' :: rest => .ok ([item], rest)
    | ',' :: rest =>
      let (more, rest) ← readItems limits fuel depth (skipBlank rest)
      .ok (item :: more, rest)
    | rest => .error (.malformed .comma rest)

end

/-- Reads a whole text: one value with blanks around it. Every step passes a character, so the length
of the text is steps enough. -/
def readChars (limits : Limits) (cs : List Char) : Except Fault Json := do
  let (value, rest) ← readValue limits (cs.length + 1) limits.depth (skipBlank cs)
  match skipBlank rest with
  | [] => .ok value
  | rest => .error (.malformed .theEnd rest)

def read (s : String) (limits : Limits := {}) : Except Fault Json :=
  if s.toList.head? = some (Char.ofNat 0xfeff) then .error (.malformed .noMark s.toList)
  else readChars limits s.toList

/-- Where a fault stands in a text: its line and column count from one, its position from zero. -/
def place (text rest : List Char) : String :=
  let before := text.take (text.length - rest.length)
  let line := before.count '\n' + 1
  let column := (before.reverse.takeWhile (· ≠ '\n')).length + 1
  "line " ++ toString line ++ " column " ++ toString column ++ " (char " ++ toString before.length ++ ")"

def Container.text : Container → String
  | .object => "object"
  | .array => "array"

/-- What is wrong with a text. -/
def Fault.message (text : List Char) : Fault → String
  | .malformed expected rest => expected.text ++ ": " ++ place text rest
  | .tooManyDigits count => NumberFault.message (.tooManyDigits count)
  | .tooDeep container =>
    "maximum recursion depth exceeded while decoding a JSON " ++ container.text ++ " from a unicode string"

end ServerSettings.Json
