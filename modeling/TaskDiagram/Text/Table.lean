import TaskDiagram.Text.Blank
import TaskDiagram.Text.Ligature

/-!
# Tables drawn with lines

A table has a head and rows. Every column is as wide as its widest line; a cell with several lines
makes its row that high. Only the head is set off from what follows.
-/

namespace TaskDiagram.Text

/-- Cells of one row, each as its lines. -/
abbrev TableRow := List (List String)

def TableRow.ofCells (cells : List String) : TableRow := cells.map (splitOnChar '\n')

/-- What stands left of, between and right of the cells of a line, and what fills them. -/
structure Rule where
  left : String
  cross : String
  right : String
  fill : String

namespace Rule

def top : Rule := ⟨"┌", "┬", "┐", "─"⟩
def underHead : Rule := ⟨"╞", "╪", "╡", "═"⟩
def bottom : Rule := ⟨"└", "┴", "┘", "─"⟩

/-- A line across columns of given widths, with room for a blank on either side. -/
def draw (rule : Rule) (widths : List Nat) : String :=
  rule.left ++ rule.cross.intercalate
    (widths.map fun w => String.join (List.replicate (w + 2) rule.fill)) ++ rule.right

end Rule

/-- Width of the widest line of each cell. -/
def TableRow.widths (row : TableRow) : List Nat :=
  row.map fun lines => lines.foldl (fun w line => max w (width line)) 1

/-- Widths of the columns of rows that have as many cells as the first. -/
def columnWidths : List TableRow → List Nat
  | [] => []
  | row :: rest =>
      rest.foldl (fun ws row => (ws.zip row.widths).map fun (v, w) => max v w) row.widths

/-- A text with blanks behind it up to a width. -/
def padEnd (w : Nat) (s : String) : String :=
  s ++ String.ofList (List.replicate (w - width s) ' ')

/-- One line of a row. -/
def TableRow.lineAt (row : TableRow) (widths : List Nat) (i : Nat) : String :=
  "│ " ++ " ┆ ".intercalate
    ((row.zip widths).map fun (lines, w) => padEnd w (lines[i]?.getD "")) ++ " │"

def TableRow.height (row : TableRow) : Nat := row.foldl (fun h lines => max h lines.length) 1

def TableRow.draw (row : TableRow) (widths : List Nat) : List String :=
  (List.range row.height).map (row.lineAt widths)

/-- The lines of a table. -/
def drawTable (head : List String) (rows : List (List String)) : String :=
  let head := TableRow.ofCells head
  let rows := rows.map TableRow.ofCells
  let widths := columnWidths (head :: rows)
  "\n".intercalate ([Rule.top.draw widths] ++ head.draw widths ++ [Rule.underHead.draw widths] ++
    rows.flatMap (TableRow.draw · widths) ++ [Rule.bottom.draw widths])

end TaskDiagram.Text
