import Reckoner.Text.Width

/-!
# Tables

A table has a header and rows of cells. A column is as wide as its widest line; a row is as high as
its highest cell. Lines frame the table and part its columns; a double line parts the header from
the rows.
-/

namespace Reckoner

/-- A table. Every row has as many cells as the header. -/
structure Table where
  header : List String
  rows : List (List String)
deriving DecidableEq, Repr

namespace Table

/-- The lines of a cell. -/
def linesOf (cell : String) : List String := cell.splitOn "\n"

/-- The columns of a terminal that a cell takes. -/
def cellWidth (cell : String) : Nat := ((linesOf cell).map Text.width).foldl max 0

/-- The widths of the columns, from those of one row and those of the others. -/
def widths (table : Table) : List Nat :=
  table.rows.foldl (fun ws row => List.zipWith (fun w cell => max w (cellWidth cell)) ws row)
    (table.header.map cellWidth)

/-- A line with blanks behind it, up to a width. -/
def pad (width : Nat) (line : String) : String :=
  line ++ String.ofList (List.replicate (width - Text.width line) ' ')

/-- A line across the table: its left end, what it is made of, what stands between columns, and its
right end. -/
def rule (left fill between right : String) (widths : List Nat) : String :=
  left ++ between.intercalate (widths.map fun w => String.join (List.replicate (w + 2) fill)) ++
    right

/-- The cells of one line of text. -/
def textLine (widths : List Nat) (cells : List String) : String :=
  "│" ++ "┆".intercalate (List.zipWith (fun w cell => " " ++ pad w cell ++ " ") widths cells) ++ "│"

/-- The lines of a row. -/
def rowLines (widths : List Nat) (row : List String) : List String :=
  let cells := row.map linesOf
  let height := (cells.map List.length).foldl max 0
  (List.range height).map fun i => textLine widths (cells.map fun lines => (lines[i]?).getD "")

/-- The lines of a table. -/
def lines (table : Table) : List String :=
  let ws := table.widths
  [rule "┌" "─" "┬" "┐" ws] ++ rowLines ws table.header ++ [rule "╞" "═" "╪" "╡" ws] ++
    table.rows.flatMap (rowLines ws) ++ [rule "└" "─" "┴" "┘" ws]

end Table

end Reckoner
