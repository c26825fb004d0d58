import Sandbox.Calendar
import Sandbox.Store.Entry
import Sandbox.Text.Width

/-!
# Listings as tables

A table is drawn with lines around its cells and rounded corners. A column is as wide as its widest cell
with a blank on either side.
-/

namespace Sandbox.Listing

/-- The lines of a cell. -/
def cellLines (cell : String) : List String := cell.splitOn "\n"

/-- The columns that a cell takes. -/
def cellWidth (cell : String) : Nat := ((cellLines cell).map Width.ofText).foldl max 0

/-- A rule across the columns of these widths. -/
def rule (left middle right : String) (widths : List Nat) : String :=
  let segment (width : Nat) : String := String.ofList (List.replicate (width + 2) '─')
  left ++ middle.intercalate (widths.map segment) ++ right

/-- A line of a cell, filled up to the width of its column. -/
def fill (width : Nat) (line : String) : String :=
  " " ++ line ++ String.ofList (List.replicate (width - Width.ofText line) ' ') ++ " "

/-- The lines of a row. -/
def rowLines (widths : List Nat) (row : List String) : List String :=
  let cells := row.map cellLines
  let height := (cells.map List.length).foldl max 0
  (List.range height).map fun i =>
    let parts := (widths.zip cells).map fun (width, lines) => fill width (lines.getD i "")
    "│" ++ "│".intercalate parts ++ "│"

/-- A table with a head. -/
def table (head : List String) (rows : List (List String)) : String :=
  let widths := rows.foldl (fun ws row => (ws.zip row).map fun (w, cell) => max w (cellWidth cell))
    (head.map cellWidth)
  "\n".intercalate <|
    rule "╭" "┬" "╮" widths :: rowLines widths head ++
      rule "├" "┼" "┤" widths :: rows.flatMap (rowLines widths) ++ [rule "╰" "┴" "╯" widths]

/-- The row of an entry. The name of a directory ends with a slash. -/
def row (e : Entry) : List String :=
  [if e.isDirectory then e.name ++ "/" else e.name, toString e.size, e.modified.calendarText,
    e.fingerprint]

/-- The text of a listing. -/
def render (entries : List Entry) : String :=
  if entries.isEmpty then "(empty)\n"
  else
    let drawn := table ["Name", "Size", "Modified", "ETag"] (entries.map row)
    s!"{drawn}\n\nTotal: {entries.length} entries\n"

end Sandbox.Listing
