import ServerSettings.Text.Blank
import ServerSettings.Text.LetterCase
import ServerSettings.Text.Split

/-!
Marked-up text: tags in brackets open a style, tags with a slash close one, and a backslash in front
makes a tag plain text. Without colour only the text between the tags counts.
-/

namespace ServerSettings.Console.Markup

/-- A closing tag without the opening one, and where it stands. -/
inductive Fault where
  | noMatch (tag : String) (position : Nat)
  | nothingOpen (position : Nat)

def Fault.message : Fault → String
  | .noMatch tag position =>
    "closing tag '[" ++ tag ++ "]' at position " ++ toString position ++ " doesn't match any open tag"
  | .nothingOpen position =>
    "closing tag '[/]' at position " ++ toString position ++ " has nothing to close"

inductive Token where
  | text (cs : List Char)
  | tag (position : Nat) (inside : List Char)

def opensTag (c : Char) : Bool :=
  c.isLower ∨ c = '#' ∨ c = '/' ∨ c = '@'

/-- The inside of a tag whose opening bracket has been passed, and what follows its closing one. -/
def takeTag : List Char → Option (List Char × List Char)
  | [] => none
  | c :: rest =>
    if opensTag c then
      let inside := c :: rest.takeWhile fun d => d ≠ '[' ∧ d ≠ ']'
      match rest.dropWhile fun d => d ≠ '[' ∧ d ≠ ']' with
      | ']' :: rest => some (inside, rest)
      | _ => none
    else none

/-- Backslashes in front of a tag stand for half as many; an odd one makes the tag text. -/
def tagTokens (position slashes : Nat) (inside : List Char) : List Token :=
  let kept := .text (List.replicate (slashes / 2) '\\')
  if slashes % 2 = 1 then [kept, .text ('[' :: inside ++ [']'])]
  else [kept, .tag (position + slashes) inside]

/-- Splits a text into plain pieces and tags; `fuel` bounds the steps. -/
def tokens : (fuel position : Nat) → List Char → List Token
  | 0, _, _ => []
  | _ + 1, _, [] => []
  | fuel + 1, position, c :: rest =>
    let cs := c :: rest
    let slashes := (cs.takeWhile (· = '\\')).length
    match cs.drop slashes with
    | '[' :: behind =>
      match takeTag behind with
      | some (inside, rest) =>
        tagTokens position slashes inside ++ tokens fuel (position + slashes + inside.length + 2) rest
      | none => .text (cs.take (slashes + 1)) :: tokens fuel (position + slashes + 1) behind
    | _ =>
      if slashes = 0 then .text [c] :: tokens fuel (position + 1) rest
      else .text (cs.take slashes) :: tokens fuel (position + slashes) (cs.drop slashes)

/-- A bracket with a backslash in front that is no tag loses the backslash. -/
def unescape : List Char → List Char
  | '\\' :: '[' :: rest => '[' :: unescape rest
  | c :: rest => c :: unescape rest
  | [] => []

def styleName (cs : List Char) : List Char :=
  Text.lower (String.ofList (Text.trim Text.isBlank cs))

/-- The text between the tags; `stack` holds the styles that are open. -/
def plainOf (stack : List (List Char)) : List Token → Except Fault (List Char)
  | [] => .ok []
  | .text cs :: rest => (plainOf stack rest).map (unescape cs ++ ·)
  | .tag position inside :: rest =>
    let (name, _) := (Text.cut? '=' inside).getD (inside, [])
    match name with
    | '/' :: closed =>
      let closed := styleName closed
      if closed.isEmpty then
        match stack with
        | [] => .error (.nothingOpen position)
        | _ :: stack => plainOf stack rest
      else if closed ∈ stack then plainOf (stack.erase closed) rest
      else .error (.noMatch (String.ofList inside) position)
    | name => plainOf (styleName name :: stack) rest

/-- The text of a marked-up text. -/
def plain (cs : List Char) : Except Fault (List Char) :=
  plainOf [] (tokens (cs.length + 1) 0 cs)

end ServerSettings.Console.Markup
