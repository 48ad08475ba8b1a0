import ServerSettings.Text.Split

/-!
Patterns that a whole text must match: alternatives, each a row of single characters and of repeated
characters out of a set. A pattern keeps its written form, which messages show.
-/

namespace ServerSettings

/-- A part of an alternative. `run` stands for as many characters out of a set as the bounds allow. -/
inductive Piece where
  | char (c : Char)
  | run (ranges : List (Char × Char)) (least : Nat) (most : Option Nat)
  deriving DecidableEq, Repr

structure Pattern where
  alternatives : List (List Piece)
  deriving DecidableEq, Repr

namespace Piece

def inRanges (ranges : List (Char × Char)) (c : Char) : Bool :=
  ranges.any fun r => r.1 ≤ c ∧ c ≤ r.2

def allows (least : Nat) (most : Option Nat) (n : Nat) : Bool :=
  least ≤ n && most.all (n ≤ ·)

/-- Does a row of pieces match a whole text? -/
def matchRow : List Piece → List Char → Bool
  | [], cs => cs.isEmpty
  | .char c :: rest, cs =>
    match cs with
    | [] => false
    | d :: cs => c = d && matchRow rest cs
  | .run ranges least most :: rest, cs =>
    (List.range ((cs.takeWhile (inRanges ranges)).length + 1)).any fun n =>
      allows least most n && matchRow rest (cs.drop n)

def writeRange (r : Char × Char) : List Char :=
  if r.1 = r.2 then [r.1] else [r.1, '-', r.2]

def writeCount (least : Nat) : Option Nat → List Char
  | some most => '\x7b' :: Nat.toDigits 10 least ++ ',' :: Nat.toDigits 10 most ++ ['\x7d']
  | none => if least = 1 then ['+'] else '\x7b' :: Nat.toDigits 10 least ++ [',', '\x7d']

def write : Piece → List Char
  | .char c => [c]
  | .run ranges least most => '[' :: ranges.flatMap writeRange ++ ']' :: writeCount least most

end Piece

namespace Pattern

def matches? (p : Pattern) (s : String) : Bool :=
  p.alternatives.any fun row => Piece.matchRow row s.toList

/-- The written form. -/
def source (p : Pattern) : String :=
  String.ofList (['|'].intercalate (p.alternatives.map (·.flatMap Piece.write)))

/-- Texts, each an alternative of its own. -/
def oneOf (words : List String) : Pattern :=
  ⟨words.map fun w => w.toList.map .char⟩

/-- Reads the characters of a set up to its closing bracket. -/
def readRanges : List Char → Option (List (Char × Char) × List Char)
  | [] => none
  | ']' :: rest => some ([], rest)
  | [_] => none
  | a :: '-' :: b :: rest =>
    if b = ']' then some ([(a, a), ('-', '-')], rest)
    else (readRanges rest).map fun p => ((a, b) :: p.1, p.2)
  | a :: b :: rest => (readRanges (b :: rest)).map fun p => ((a, a) :: p.1, p.2)

def digitsValue? (cs : List Char) : Option Nat :=
  if cs.isEmpty ∨ !cs.all Char.isDigit then none else some (Nat.ofDigitChars 10 cs 0)

/-- Reads how often a set is repeated. -/
def readCount : List Char → Option (Nat × Option Nat × List Char)
  | '+' :: rest => some (1, none, rest)
  | '\x7b' :: rest => do
    let (inside, rest) ← Text.cut? '\x7d' rest
    let (least, most) ← Text.cut? ',' inside
    let least ← digitsValue? least
    if most.isEmpty then some (least, none, rest)
    else
      let most ← digitsValue? most
      some (least, some most, rest)
  | rest => some (1, some 1, rest)

/-- Reads the pieces of one alternative; `fuel` bounds their number. -/
def readRow : (fuel : Nat) → List Char → Option (List Piece)
  | 0, _ => none
  | _ + 1, [] => some []
  | fuel + 1, '[' :: rest => do
    let (ranges, rest) ← readRanges rest
    let (least, most, rest) ← readCount rest
    let more ← readRow fuel rest
    return .run ranges least most :: more
  | fuel + 1, c :: rest => do
    let more ← readRow fuel rest
    return .char c :: more

/-- The pattern of a written form. -/
def ofSource? (s : String) : Option Pattern := do
  let rows := Text.split '|' s.toList
  let alternatives ← rows.mapM fun row => readRow (row.length + 1) row
  return ⟨alternatives⟩

end Pattern

end ServerSettings
