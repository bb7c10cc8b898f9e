import SchemaCompiler.Text.Width

/-!
# Tables

A `Table` has a title for each column and rows of cells, which may have several
lines. Every column is as wide as its widest line and has a blank on both sides.
-/

namespace SchemaCompiler
namespace CommandLine

/-- The side of a cell that its text keeps to. -/
inductive Alignment where
  | left
  | right
deriving Repr, DecidableEq, Inhabited

/-- A cell by its lines. -/
structure Cell where
  lines : List String
  alignment : Alignment := .left
deriving Repr, DecidableEq, Inhabited

namespace Cell

/-- The cell of a text. -/
def ofText (text : String) (alignment : Alignment) : Cell where
  lines := (text.toList.splitOn '\n').map String.ofList
  alignment := alignment

/-- Number of columns that a cell takes. -/
def width (cell : Cell) : Nat := (cell.lines.map Text.width).foldl max 0

/-- One line of a cell, filled up to a width, with a blank on both sides. -/
def line (cell : Cell) (width index : Nat) : String :=
  let text := cell.lines.getD index ""
  let filling := String.ofList (List.replicate (width - Text.width text) ' ')
  match cell.alignment with
  | .left => " " ++ text ++ filling ++ " "
  | .right => " " ++ filling ++ text ++ " "

end Cell

/-- Titles and rows of cells. -/
structure Table where
  titles : List String
  rows : List (List Cell)
deriving Repr, DecidableEq, Inhabited

namespace Table

/-- The cells of the titles. -/
def head (table : Table) : List Cell := table.titles.map fun title => Cell.ofText title .left

/-- Width of every column. -/
def widths (table : Table) : List Nat :=
  table.rows.foldl (fun widths row => List.zipWith max widths (row.map Cell.width))
    (table.head.map Cell.width)

/-- A horizontal line of some length. -/
def rule (length : Nat) : String := String.ofList (List.replicate length '─')

/-- The line above and below the table, broken between columns. -/
def outerRule (widths : List Nat) : String :=
  String.intercalate " " (widths.map fun width => rule (width + 2))

/-- The line below the titles. -/
def innerRule (widths : List Nat) : String :=
  rule ((widths.map (· + 2)).foldr (· + ·) (widths.length - 1))

/-- The lines of a row. -/
def rowLines (widths : List Nat) (row : List Cell) : List String :=
  let height := (row.map fun cell => cell.lines.length).foldl max 0
  (List.range height).map fun index =>
    String.intercalate " " (List.zipWith (fun cell width => cell.line width index) row widths)

/-- The lines of the table. -/
def lines (table : Table) : List String :=
  let widths := table.widths
  outerRule widths :: rowLines widths table.head
    ++ [innerRule widths] ++ table.rows.flatMap (rowLines widths) ++ [outerRule widths]

end Table
end CommandLine
end SchemaCompiler
