import Consequence.Libraries.Joining
import Consequence.Report.Outcome

/-!
# Drawing tables

A table is drawn in a frame. Each column is as wide as its widest cell and a blank on either side.
-/

set_option autoImplicit false

namespace Consequence.Table

/-- The larger widths of two rows, column by column. -/
def widen : List Nat → List Nat → List Nat
  | [], others => others
  | widths, [] => widths
  | w :: widths, v :: others => max w v :: widen widths others

/-- The widths of the columns. -/
def widths (table : Table) : List Nat :=
  (table.header :: table.rows).foldl
    (fun widths row => widen widths (row.map fun cell => textWidth cell.text)) []

/-- A cell that is filled up with blanks. -/
def fill (width : Nat) (cell : Cell) : String :=
  let blanks := "".pushn ' ' (width - textWidth cell.text)
  match cell.alignment with
  | .left => cell.text ++ blanks
  | .right => blanks ++ cell.text

/-- A row between the edges of the frame. -/
def rowLine (widths : List Nat) (row : List Cell) : String :=
  "│ " ++ " ┆ ".intercalate (List.zipWith fill widths row) ++ " │"

/-- A horizontal line: the left edge, the stroke, the crossing and the right edge. -/
def rule (widths : List Nat) (left : String) (stroke : Char) (crossing right : String) : String :=
  left ++ crossing.intercalate (widths.map fun w => "".pushn stroke (w + 2)) ++ right

/-- The lines of a table. -/
def lines (table : Table) : List String :=
  let widths := table.widths
  [rule widths "┌" '─' "┬" "┐", rowLine widths table.header, rule widths "╞" '═' "╪" "╡"]
    ++ (table.rows.map (rowLine widths)).intersperse (rule widths "├" '╌' "┼" "┤")
    ++ [rule widths "└" '─' "┴" "┘"]

/-- The table, with line feeds between its lines. -/
def draw (table : Table) : String :=
  "\n".intercalate table.lines

end Consequence.Table
