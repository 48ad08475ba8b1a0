import ServerSettings.Command.Parameter
import ServerSettings.Dict
import ServerSettings.Text.Digit
import ServerSettings.Text.Quoted
import ServerSettings.Text.Split

/-!
The words of a command line: which of them are parameters, and which stand for themselves.
-/

namespace ServerSettings.Command

/-- Why a command line is refused. -/
inductive Fault where
  | ambiguous (word : String) (spellings : List String)
  | unwantedValue (p : Parameter) (value : String)
  | missingValue (p : Parameter)
  | notAllowed (name value : String) (choices : List String)
  | noCommand
  | unrecognized (words : List String)
  deriving DecidableEq, Repr

def Fault.message : Fault → String
  | .ambiguous word spellings =>
    "ambiguous option: " ++ word ++ " could match " ++ String.intercalate ", " spellings
  | .unwantedValue p value => "argument " ++ p.text ++ ": ignored explicit argument " ++ Text.quoted value
  | .missingValue p => "argument " ++ p.text ++ ": expected one argument"
  | .notAllowed name value choices =>
    "argument " ++ name ++ ": invalid choice: " ++ Text.quoted value ++ " (choose from " ++
      String.intercalate ", " (choices.map Text.quoted) ++ ")"
  | .noCommand => "the following arguments are required: command"
  | .unrecognized words => "unrecognized arguments: " ++ String.intercalate " " words

/-- `value` is what an equals sign or the rest of the word gives a parameter. -/
inductive Word where
  | plain (text : String)
  | separator
  | parameter (p : Parameter) (spelling : String) (value : Option String)
  | unknown (text : String)
  deriving DecidableEq, Repr

namespace Word

/-- The spellings of parameters, with the parameters. -/
def spelled (known : List Parameter) : Dict Parameter :=
  known.flatMap fun p => p.spellings.map fun s => (s, p)

/-- A minus and digits, with or without a point among them; a line feed may follow. -/
def isNegativeNumber (cs : List Char) : Bool :=
  match Text.after? ['-'] cs with
  | none => false
  | some number =>
    let number := if number.getLast? = some '\n' then number.dropLast else number
    match Text.cut? '.' number with
    | none => !number.isEmpty && number.all Text.isDecimalDigit
    | some (whole, part) => whole.all Text.isDecimalDigit && !part.isEmpty && part.all Text.isDecimalDigit

/-- The parameters that a word with two dashes may abbreviate, and those whose letter a word with one
dash begins with. -/
def candidates (known : List Parameter) (cs : List Char) : List (String × Parameter × Option String) :=
  match cs with
  | '-' :: '-' :: _ =>
    let (start, value) := match Text.cut? '=' cs with
      | some (start, value) => (start, some (String.ofList value))
      | none => (cs, none)
    (spelled known).filterMap fun (spelling, p) =>
      (Text.after? start spelling.toList).map fun _ => (spelling, p, value)
  | cs =>
    (spelled known).filterMap fun (spelling, p) =>
      if spelling.toList = cs.take 2 then some (spelling, p, some (String.ofList (cs.drop 2))) else none

/-- A word that begins with a dash and is no spelling as it stands. Numbers, and words with blanks, stand
for themselves. -/
def ofDashed (known : List Parameter) (word : String) : Except Fault Word :=
  let cs := word.toList
  match candidates known cs with
  | [(spelling, p, value)] => .ok (.parameter p spelling value)
  | [] => .ok (if isNegativeNumber cs ∨ ' ' ∈ cs then .plain word else .unknown word)
  | several => .error (.ambiguous word (several.map (·.1)))

/-- The word with a value behind an equals sign, if it is spelled out in full. -/
def ofAssigned? (known : List Parameter) (word : String) : Option Word := do
  let (spelling, value) ← Text.cut? '=' word.toList
  let p ← Dict.lookup (spelled known) (String.ofList spelling)
  return .parameter p (String.ofList spelling) (some (String.ofList value))

/-- What a word is where the parameters `known` are understood. -/
def ofText (known : List Parameter) (word : String) : Except Fault Word :=
  if word.toList.head? ≠ some '-' then .ok (.plain word)
  else
    match Dict.lookup (spelled known) word with
    | some p => .ok (.parameter p word none)
    | none =>
      if word = "-" then .ok (.plain word)
      else
        match ofAssigned? known word with
        | some w => .ok w
        | none => ofDashed known word

/-- The words of a line; behind two dashes all stand for themselves. -/
def ofTexts (known : List Parameter) : List String → Except Fault (List Word)
  | [] => .ok []
  | word :: rest =>
    if word = "--" then .ok (.separator :: rest.map .plain)
    else
      match ofText known word with
      | .error fault => .error fault
      | .ok w => (ofTexts known rest).map (w :: ·)

end Word

end ServerSettings.Command
