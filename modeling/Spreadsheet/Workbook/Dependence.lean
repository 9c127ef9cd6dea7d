/-
What depends on what, said of the formulas and names of a workbook and not of its graph. A formula
reads the cells inside its own references and inside those of the names it reaches, and a cell
depends on the cells that its formula reads.
-/
import Spreadsheet.Workbook.Basic

namespace Spreadsheet

/-- Whether dependencies record a cell, by itself or inside a rectangle. -/
def Dependencies.Records (d : Dependencies) (input : CellAddress) : Prop :=
  input ∈ d.cells ∨ ∃ r ∈ d.ranges, r.contains input = true

/-- Whether a formula reads a cell, directly or through names. -/
def NameTable.Reads (names : NameTable) (f : Formula) (input : CellAddress) : Prop :=
  ∃ target ∈ f.references ++ names.references f.names, target.asRange.contains input = true

namespace Workbook

/-- Whether a cell holds a formula that reads another cell. -/
def DependsOn (w : Workbook) (cell input : CellAddress) : Prop :=
  ∃ f, w.store.formula? cell = some f ∧ w.names.Reads f input

end Workbook

end Spreadsheet
