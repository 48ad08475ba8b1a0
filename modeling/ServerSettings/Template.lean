import ServerSettings.Decimal.Fixed
import ServerSettings.Text.LetterCase
import ServerSettings.Text.Units
import ServerSettings.Value

/-!
Message templates: texts in which `%` marks the places of arguments. A mark has flags, a width, a
precision and a letter for the form; `%(name)` takes its argument from a map.
-/

namespace ServerSettings

/-- What a template is filled with. -/
inductive Arguments where
  | row (values : List Value)
  | named (entries : List (Value × Value))

namespace Template

/-- The two sizes of a mark. -/
inductive Size where
  | width
  | precision
  deriving DecidableEq, Repr

namespace Size

/-- The greatest number that a size may be. -/
def greatest : Size → Nat
  | .width => Nat.pow 2 63 - 1
  | .precision => Nat.pow 2 31 - 1

def name : Size → String
  | .width => "width"
  | .precision => "precision"

/-- The type of number that a size is kept in. -/
def typeName : Size → String
  | .width => "ssize_t"
  | .precision => "int"

end Size

inductive Fault where
  | notEnough
  | tooMany
  | noMap
  | missingKey (key : String)
  | incomplete
  | incompleteKey
  | unsupported (form : Char) (index : Nat)
  | sizeNotWhole
  | sizeTooBig (size : Size)
  | argumentTooBig (size : Size)
  | outOfMemory
  | realRequired (form : Char) (typeName : String)
  | wholeRequired (form : Char) (typeName : String)
  | floatRequired (typeName : String)
  | charRequired
  | charRange
  | nanToWhole
  | infinityToWhole
  | tooLargeForFloat
  | number (fault : NumberFault)

def Fault.message : Fault → String
  | .notEnough => "not enough arguments for format string"
  | .tooMany => "not all arguments converted during string formatting"
  | .noMap => "format requires a mapping"
  | .missingKey key => Text.quoted key
  | .incomplete => "incomplete format"
  | .incompleteKey => "incomplete format key"
  | .unsupported form index =>
    let shown := if 31 ≤ form.toNat ∧ form.toNat ≤ 126 then form else '?'
    "unsupported format character '" ++ String.ofList [shown] ++ "' (0x" ++
      String.ofList (Text.hex 1 form.toNat) ++ ") at index " ++ toString index
  | .sizeNotWhole => "* wants int"
  | .sizeTooBig size => size.name ++ " too big"
  | .argumentTooBig size => "Python int too large to convert to C " ++ size.typeName
  | .outOfMemory => ""
  | .realRequired form typeName =>
    "%" ++ String.ofList [form] ++ " format: a real number is required, not " ++ typeName
  | .wholeRequired form typeName =>
    "%" ++ String.ofList [form] ++ " format: an integer is required, not " ++ typeName
  | .floatRequired typeName => "must be real number, not " ++ typeName
  | .charRequired => "%c requires int or char"
  | .charRange => "%c arg not in range(0x110000)"
  | .nanToWhole => "cannot convert float NaN to integer"
  | .infinityToWhole => "cannot convert float infinity to integer"
  | .tooLargeForFloat => "int too large to convert to float"
  | .number fault => fault.message

/-- The name of the class of failures that a fault belongs to. -/
def Fault.title : Fault → String
  | .incomplete | .incompleteKey | .unsupported _ _ | .sizeTooBig _ | .nanToWhole | .number _ =>
    "ValueError"
  | .missingKey _ => "KeyError"
  | .argumentTooBig _ | .charRange | .infinityToWhole | .tooLargeForFloat => "OverflowError"
  | .outOfMemory => "MemoryError"
  | _ => "TypeError"

/-- The arguments that are left: a row, or a single one that can be taken once. -/
inductive Supply where
  | row (rest : List Value)
  | single (v : Value) (taken : Bool)

def Supply.next : Supply → Except Fault (Value × Supply)
  | .row (v :: rest) => .ok (v, .row rest)
  | .single v false => .ok (v, .single v true)
  | _ => .error .notEnough

structure Flags where
  left : Bool := false
  plus : Bool := false
  blank : Bool := false
  alternate : Bool := false
  zero : Bool := false

def takeFlags (flags : Flags) : List Char → Flags × List Char
  | '-' :: rest => takeFlags { flags with left := true } rest
  | '+' :: rest => takeFlags { flags with plus := true } rest
  | ' ' :: rest => takeFlags { flags with blank := true } rest
  | '#' :: rest => takeFlags { flags with alternate := true } rest
  | '0' :: rest => takeFlags { flags with zero := true } rest
  | rest => (flags, rest)

/-- The key behind an opening parenthesis, and what follows the one that closes it. `depth` counts those
opened inside. -/
def takeKey (depth : Nat) : List Char → Option (List Char × List Char)
  | [] => none
  | ')' :: rest =>
    if depth = 0 then some ([], rest) else (takeKey (depth - 1) rest).map fun p => (')' :: p.1, p.2)
  | '(' :: rest => (takeKey (depth + 1) rest).map fun p => ('(' :: p.1, p.2)
  | c :: rest => (takeKey depth rest).map fun p => (c :: p.1, p.2)

/-- A width or precision: digits, or a star that takes it from the arguments. -/
def takeSize (size : Size) (supply : Supply) :
    List Char → Except Fault (Option Int × Supply × List Char)
  | '*' :: rest => do
    let (v, supply) ← supply.next
    match v.whole? with
    | some n =>
      if (size.greatest : Int) < n ∨ n < -(size.greatest : Int) - 1 then .error (.argumentTooBig size)
      else return (some n, supply, rest)
    | none => .error .sizeNotWhole
  | cs =>
    let digits := cs.takeWhile Whole.isDigit
    let n := Nat.ofDigitChars 10 digits 0
    if digits.isEmpty then .ok (none, supply, cs)
    else if size.greatest < n then .error (.sizeTooBig size)
    else .ok (some n, supply, cs.dropWhile Whole.isDigit)

/-- A text may not be made wider than this. -/
def greatestWidth : Nat := Nat.pow 2 40

/-- How an argument is shown: its sign, a mark of the base, and the rest. -/
structure Shown where
  sign : List Char := []
  base : List Char := []
  body : List Char

/-- Fills up to a width: behind, with zeros between the sign and the digits, or in front. -/
def Shown.fill (flags : Flags) (width : Nat) (numeric : Bool) (s : Shown) : List Char :=
  let missing := width - (s.sign.length + s.base.length + s.body.length)
  if flags.left then s.sign ++ s.base ++ s.body ++ List.replicate missing ' '
  else if numeric ∧ flags.zero then s.sign ++ s.base ++ List.replicate missing '0' ++ s.body
  else List.replicate missing ' ' ++ s.sign ++ s.base ++ s.body

def signOf (flags : Flags) (negative : Bool) : List Char :=
  if negative then ['-'] else if flags.plus then ['+'] else if flags.blank then [' '] else []

def isDecimalForm (form : Char) : Bool := form = 'd' ∨ form = 'i' ∨ form = 'u'
def isBaseForm (form : Char) : Bool := form = 'o' ∨ form = 'x' ∨ form = 'X'
def isFloatForm (form : Char) : Bool := form.toLower = 'e' ∨ form.toLower = 'f' ∨ form.toLower = 'g'
def isTextForm (form : Char) : Bool := form = 's' ∨ form = 'r' ∨ form = 'a'

/-- The whole number that an argument stands for. -/
def wholeOf (form : Char) : Value → Except Fault Int
  | .float x =>
    if isBaseForm form then .error (.wholeRequired form "float")
    else
      match x with
      | .nan => .error .nanToWhole
      | .infinite _ => .error .infinityToWhole
      | x => .ok (x.truncate?.getD 0)
  | v =>
    match v.whole? with
    | some n => .ok n
    | none =>
      .error (if isBaseForm form then .wholeRequired form v.typeName else .realRequired form v.typeName)

def showWhole (flags : Flags) (precision : Nat) (form : Char) (n : Int) : Except Fault Shown :=
  let base := if isDecimalForm form then 10 else if form = 'o' then 8 else 16
  let digits := Text.padLeft '0' precision (Nat.toDigits base n.natAbs)
  if isDecimalForm form ∧ !Whole.isWritable n then .error (.number .tooLarge)
  else
    .ok { sign := signOf flags (n < 0)
          base := if flags.alternate ∧ isBaseForm form then ['0', form] else []
          body := if form = 'X' then digits.map Char.toUpper else digits }

def floatOf : Value → Except Fault Binary64
  | .float x => .ok x
  | v =>
    match v.whole? with
    | some n =>
      match Binary64.ofInt n with
      | .infinite _ => .error .tooLargeForFloat
      | x => .ok x
    | none => .error (.floatRequired v.typeName)

def floatBody (flags : Flags) (precision : Nat) (form : Char) : Binary64 → List Char
  | .nan => "nan".toList
  | .infinite _ => "inf".toList
  | .finite _ m e =>
    let (num, den) := Binary64.ratio m e
    if form.toLower = 'f' then Binary64.fixedText num den precision flags.alternate
    else if form.toLower = 'e' then Binary64.scientificText num den precision flags.alternate
    else Binary64.generalText num den precision flags.alternate

def showFloat (flags : Flags) (precision : Nat) (form : Char) (x : Binary64) : Shown :=
  let body := floatBody flags precision form x
  { sign := signOf flags x.isNegative
    body := if form.isUpper then body.map Char.toUpper else body }

/-- A text in which characters beyond ASCII are escaped. -/
def asciiOnly (s : String) : List Char :=
  s.toList.flatMap fun c => if c.toNat < 0x80 then [c] else Text.codePointEscape c

def textOf (form : Char) (v : Value) : Except Fault (List Char) :=
  let text := if form = 's' then v.plain else v.quoted
  (text.map fun s => if form = 'a' then asciiOnly s else s.toList).mapError .number

def charOf : Value → Except Fault Char
  | .text s =>
    match s.toList with
    | [c] => .ok c
    | _ => .error .charRequired
  | v =>
    match v.whole? with
    | some n => if 0 ≤ n ∧ n < 0x110000 then .ok (Text.unitChar n.toNat) else .error .charRange
    | none => .error .charRequired

/-- An argument in the form that a letter asks for; `index` is where the letter stands. -/
def convert (flags : Flags) (width : Nat) (precision : Option Nat) (form : Char) (index : Nat)
    (v : Value) : Except Fault (List Char) := do
  if greatestWidth < width then .error .outOfMemory
  else if isTextForm form then
    let text ← textOf form v
    let shown := match precision with
      | some n => text.take n
      | none => text
    return Shown.fill flags width false { body := shown }
  else if isDecimalForm form ∨ isBaseForm form then
    let n ← wholeOf form v
    let shown ← showWhole flags (precision.getD 0) form n
    return shown.fill flags width true
  else if isFloatForm form then
    let x ← floatOf v
    return (showFloat flags (precision.getD 6) form x).fill flags width true
  else if form = 'c' then
    let c ← charOf v
    return Shown.fill flags width false { body := [c] }
  else .error (.unsupported form index)

/-- The argument named in parentheses becomes the only one left. -/
def selectKey (entries : Option (List (Value × Value))) (supply : Supply) :
    List Char → Except Fault (Supply × List Char)
  | '(' :: rest =>
    match entries with
    | none => .error .noMap
    | some entries =>
      match takeKey 0 rest with
      | none => .error .incompleteKey
      | some (key, rest) =>
        match Value.lookupText (String.ofList key) entries with
        | some v => .ok (.single v false, rest)
        | none => .error (.missingKey (String.ofList key))
  | rest => .ok (supply, rest)

/-- A precision behind a point; a negative one counts as zero. -/
def takePrecision (supply : Supply) : List Char → Except Fault (Option Nat × Supply × List Char)
  | '.' :: rest => do
    let (size, supply, rest) ← takeSize .precision supply rest
    return (some (size.getD 0).toNat, supply, rest)
  | rest => .ok (none, supply, rest)

/-- Letters for the size of a number, which mean nothing here. -/
def skipLength : List Char → List Char
  | 'h' :: rest => rest
  | 'l' :: rest => rest
  | 'L' :: rest => rest
  | rest => rest

/-- Fills in one mark that takes an argument; `rest` is what follows its `%`, and `length` that of the
whole template. -/
def expandMark (entries : Option (List (Value × Value))) (length : Nat) (supply : Supply)
    (rest : List Char) : Except Fault (List Char × Supply × List Char) := do
  let (supply, rest) ← selectKey entries supply rest
  let (flags, rest) := takeFlags {} rest
  let (size, supply, rest) ← takeSize .width supply rest
  let width := (size.getD 0).natAbs
  let flags := if size.getD 0 < 0 then { flags with left := true } else flags
  let (precision, supply, rest) ← takePrecision supply rest
  match skipLength rest with
  | [] => .error .incomplete
  | form :: rest =>
    let (v, supply) ← supply.next
    let text ← convert flags width precision form (length - rest.length - 1) v
    return (text, supply, rest)

def isLeftOver (entries : Option (List (Value × Value))) : Supply → Bool
  | .row (_ :: _) => entries.isNone
  | _ => false

/-- Fills in all marks; two `%` stand for one. `fuel` bounds the steps. -/
def expand (entries : Option (List (Value × Value))) (length : Nat) :
    (fuel : Nat) → Supply → List Char → Except Fault (List Char)
  | 0, _, _ => .ok []
  | _ + 1, supply, [] => if isLeftOver entries supply then .error .tooMany else .ok []
  | fuel + 1, supply, '%' :: '%' :: rest => (expand entries length fuel supply rest).map ('%' :: ·)
  | fuel + 1, supply, '%' :: rest => do
    let (text, supply, rest) ← expandMark entries length supply rest
    let more ← expand entries length fuel supply rest
    return text ++ more
  | fuel + 1, supply, c :: rest => (expand entries length fuel supply rest).map (c :: ·)

/-- Fills a template with arguments. Every step passes a character. -/
def fill (template : String) (args : Arguments) : Except Fault String :=
  let cs := template.toList
  let filled :=
    match args with
    | .row values => expand none cs.length (cs.length + 1) (.row values) cs
    | .named entries => expand (some entries) cs.length (cs.length + 1) (.single (.map entries) false) cs
  filled.map String.ofList

end Template

end ServerSettings
