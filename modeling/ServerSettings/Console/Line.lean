import ServerSettings.Console.CellWidth
import ServerSettings.Text.Blank

/-!
Printing text as it is: never wrapped or coloured. A few controls are left out, tabs become blanks, and
blanks that stick out at the right are cut off.
-/

namespace ServerSettings.Console

/-- The columns of the terminal. -/
def columns : Nat := 80

def tabStop : Nat := 8

/-- Bell, backspace, vertical tab, form feed and carriage return are not printed. -/
def isDropped (c : Char) : Bool :=
  c.toNat ∈ [7, 8, 11, 12, 13]

def dropControls (cs : List Char) : List Char :=
  cs.filter fun c => !isDropped c

/-- A tab becomes blanks up to the next stop; `column` is where the text stands. -/
def expandTabs (column : Nat) : List Char → List Char
  | [] => []
  | '\t' :: rest =>
    let blanks := tabStop - column % tabStop
    List.replicate blanks ' ' ++ expandTabs (column + blanks) rest
  | c :: rest => c :: expandTabs (column + charWidth c) rest

/-- Cuts blanks at the end of a line as far as they are beyond a width. -/
def cutBlanks (width : Nat) (cs : List Char) : List Char :=
  let blanks := (cs.reverse.takeWhile Text.isBlank).length
  cs.take (cs.length - min blanks (cs.length - width))

def printLine (cs : List Char) : List Char :=
  cutBlanks columns (expandTabs 0 cs)

/-- A text as it is printed, with the end of its last line. -/
def printText (s : String) : String :=
  let lines := Text.split '\n' (dropControls s.toList)
  String.ofList (['\n'].intercalate (lines.map printLine) ++ ['\n'])

end ServerSettings.Console
