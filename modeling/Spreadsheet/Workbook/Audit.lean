/-
Reading a workbook: the three readings of a cell, what a cell depends on and what depends on it.
-/
import Spreadsheet.Workbook.Edit

namespace Spreadsheet

namespace Workbook

/-- A cell read as a number. -/
def number (w : Workbook) (cell : CellAddress) : Except Failure Float := do
  w.checkSheet cell.sheet
  w.store.number cell

/-- A cell read as a text. -/
def text (w : Workbook) (cell : CellAddress) : Except Failure String := do
  w.checkSheet cell.sheet
  w.store.text cell

/-- A cell read as a truth value. -/
def truth (w : Workbook) (cell : CellAddress) : Except Failure Bool := do
  w.checkSheet cell.sheet
  w.store.truth cell

/-- The cells a cell depends on directly: the single ones, and the occupied ones of the rectangles
it watches. -/
def precedents (w : Workbook) (cell : CellAddress) : CellSet :=
  (w.graph.dependencies cell).insertMany ((w.watch.ranges cell).flatMap w.store.occupiedIn)

/-- The cells that depend on a cell, directly or not; the cell itself if it is on a cycle. -/
def dependents (w : Workbook) (cell : CellAddress) : CellSet :=
  w.graph.transitiveDependents w.watch.furtherEdges cell

end Workbook

end Spreadsheet
