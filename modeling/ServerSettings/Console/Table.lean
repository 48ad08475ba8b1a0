import ServerSettings.Console.Line
import ServerSettings.Console.Markup
import ServerSettings.Decimal.Rounding

/-!
Tables without lines: columns as wide as their widest cell, two blanks apart. A table that is too wide is
made narrower column by column, and what no longer fits ends in an ellipsis.
-/

namespace ServerSettings.Console

structure Table where
  headers : List String
  rows : List (List String)
  title : Option String := none

namespace Table

/-- How many columns there are: a row may have more cells than there are headers. -/
def count (t : Table) : Nat :=
  (t.rows.map List.length).foldl max t.headers.length

/-- Rows filled up with empty cells. -/
def filled (n : Nat) (row : List String) : List String :=
  row ++ List.replicate (n - row.length) ""

/-- The cells of all rows, the headers first, as plain text. -/
def cells (t : Table) : Except Markup.Fault (List (List (List Char))) :=
  ((t.headers :: t.rows).map (filled t.count)).mapM fun row =>
    row.mapM fun cell => (Markup.plain cell.toList).map dropControls

/-- Lines in the sense of Unicode, by which cells are measured. -/
def isLineEnd (c : Char) : Bool :=
  c.toNat ∈ [10, 11, 12, 13, 0x1c, 0x1d, 0x1e, 0x85, 0x2028, 0x2029]

def measuredLines : List Char → List (List Char)
  | [] => [[]]
  | c :: rest =>
    if isLineEnd c then [] :: measuredLines rest
    else
      match measuredLines rest with
      | [] => [[c]]
      | line :: lines => (c :: line) :: lines

/-- The width of the widest line of a cell. -/
def cellWidth (cs : List Char) : Nat :=
  ((measuredLines cs).map textWidth).foldl max 0

/-- Blanks beside the cells of a column: one on each side, none at the edges of the table. -/
def padding (n i : Nat) : Nat × Nat :=
  (if i = 0 then 0 else 1, if i + 1 = n then 0 else 1)

def columnWidth (n i : Nat) (rows : List (List (List Char))) : Nat :=
  let widest := (rows.map fun row => cellWidth (row[i]?.getD [])).foldl max 0
  let width := widest + (padding n i).1 + (padding n i).2
  if width = 0 then 1 else width

/-- Takes `excess` off widths, about the same off each; `left` counts the columns still to come. -/
def reduce (excess : Nat) : (left : Nat) → List Nat → List Nat
  | _, [] => []
  | left, width :: rest =>
    let share := min width (roundDiv excess left)
    (width - share) :: reduce (excess - share) (left - 1) rest

def widths (n : Nat) (rows : List (List (List Char))) : List Nat :=
  let natural := (List.range n).map fun i => columnWidth n i rows
  if columns < total natural then reduce (total natural - columns) n natural else natural

/-- As many characters as fit into a width, filled up with blanks. -/
def fit : (width : Nat) → List Char → List Char
  | width, [] => List.replicate width ' '
  | width, c :: rest =>
    if charWidth c ≤ width then c :: fit (width - charWidth c) rest else List.replicate width ' '

/-- A line cut to a width, with an ellipsis if something is missing. -/
def fitLine (width : Nat) (cs : List Char) : List Char :=
  let cs := cutBlanks width (expandTabs 0 cs)
  if width < textWidth cs then
    if width = 0 then [] else fit (width - 1) cs ++ [Char.ofNat 0x2026]
  else fit width cs

/-- The lines of a cell with the blanks beside them, as far as there is room for these. -/
def cellLines (n i width : Nat) (cs : List Char) : List (List Char) :=
  let (left, right) := padding n i
  (Text.split '\n' cs).map fun line =>
    if width < left + right then List.replicate width ' '
    else List.replicate left ' ' ++ fitLine (width - left - right) line ++ List.replicate right ' '

/-- The lines of a row: cells with fewer lines are blank below. -/
def rowLines (n : Nat) (widths : List Nat) (row : List (List Char)) : List (List Char) :=
  let parts := (row.zip widths).mapIdx fun i p => (cellLines n i p.2 p.1, p.2)
  let height := (parts.map (·.1.length)).foldl max 0
  (List.range height).map fun k =>
    parts.flatMap fun p => p.1[k]?.getD (List.replicate p.2 ' ')

/-- A line in the middle of a width. -/
def centred (width : Nat) (cs : List Char) : List Char :=
  let bare := Text.trimEnd Text.isBlank (expandTabs 0 cs)
  let left := (width - textWidth bare) / 2
  let shifted := List.replicate left ' ' ++ bare
  shifted ++ List.replicate (width - textWidth shifted) ' '

def titleLines (width : Nat) (title : String) : Except Markup.Fault (List (List Char)) :=
  (Markup.plain title.toList).map fun cs => (Text.split '\n' (dropControls cs)).map (centred width)

/-- A table as it is printed; one without rows is not. -/
def print (t : Table) : Except Markup.Fault String := do
  if t.rows.isEmpty then return ""
  if t.count = 0 then return "\n"
  let rows ← t.cells
  let widths := widths t.count rows
  let above ← match t.title with
    | some title => if title = "" then pure [] else titleLines (total widths) title
    | none => pure []
  let lines := above ++ rows.flatMap (rowLines t.count widths)
  return String.ofList (lines.flatMap (· ++ ['\n']))

end Table

end ServerSettings.Console
