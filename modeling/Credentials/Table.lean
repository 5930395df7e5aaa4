import Credentials.Text.Units

/-!
# Tables

A table has a header and rows with as many cells as the header.  It is laid out in columns, each
as wide as its widest cell, in code units: every cell is followed by spaces up to the width of its
column, with one more space on either side, and a line separates the header from the rows.
-/

namespace Credentials

/-- A header, and rows of cells. -/
structure Table where
  header : List Text
  rows : List (List Text)

namespace Table

/-- The widths `ws`, enlarged where a cell of the row is wider. -/
def widen (ws : List Nat) (row : List Text) : List Nat :=
  List.zipWith (fun w cell => max w (Text.units cell)) ws row

/-- The widths of the columns. -/
def widths (t : Table) : List Nat :=
  t.rows.foldl widen (t.header.map Text.units)

/-- A cell with spaces up to the width `w`, and one on either side. -/
def cellText (w : Nat) (cell : Text) : Text :=
  ' ' :: cell ++ List.replicate (w - Text.units cell) ' ' ++ [' ']

/-- The line of a row, with bars between the columns. -/
def rowText (ws : List Nat) (row : List Text) : Text :=
  ['│'].intercalate (List.zipWith cellText ws row)

/-- The line between the header and the rows. -/
def ruleText (ws : List Nat) : Text :=
  ['┼'].intercalate (ws.map fun w => List.replicate (w + 2) '─')

/-- Prints the header, the line below it and the rows, and an empty line after them. -/
def print {m : Type → Type} [Monad m] (printLine : String → m Unit) (t : Table) : m Unit := do
  printLine (String.ofList (rowText t.widths t.header))
  printLine (String.ofList (ruleText t.widths))
  t.rows.forM fun row => printLine (String.ofList (rowText t.widths row))
  printLine ""

end Table

end Credentials
