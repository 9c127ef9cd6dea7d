/-
The workbook: the store together with what is known about it. Every edit keeps four things in step:
the edges and watched rectangles of each formula are those its references and the names it uses give
now; the cells whose formulas use names are known; every formula whose inputs have changed since its
last calculation is dirty and has no result; and a cell that is dirty makes everything that depends
on it dirty. Nothing is recalculated here.
-/
import Spreadsheet.Dependencies
import Spreadsheet.RangeWatch
import Spreadsheet.Store

namespace Spreadsheet

/-- What can be put into a cell. -/
inductive CellInput where
  | number (value : Float)
  | text (content : String)
  | boolean (truth : Bool)
  | formula (source : String)
deriving Inhabited

/-- A workbook. -/
structure Workbook where
  store : Store
  /-- Which cell depends on which, cell by cell. -/
  graph : Links CellAddress
  /-- Which cell depends on which large rectangles. -/
  watch : RangeWatch
  names : NameTable
  /-- The cells whose formulas use a name. -/
  nameUsers : CellSet
  /-- The cells that have changed, or whose inputs have, since the last calculation. -/
  dirty : CellSet
  policy : TextPolicy

namespace Workbook

/-- A workbook without sheets. -/
def empty (policy : TextPolicy) : Workbook where
  store := .empty
  graph := .empty
  watch := .empty
  names := .empty
  nameUsers := ∅
  dirty := ∅
  policy := policy

/-- What a formula depends on: its own references, then those of the names it reaches. -/
def dependenciesOf (names : NameTable) (f : Formula) : Dependencies :=
  .ofReferences (f.references ++ names.references f.names)

/-- Ties a cell to exactly the given dependencies. -/
def wire (w : Workbook) (cell : CellAddress) (dependencies : Dependencies) : Workbook :=
  { w with
    graph := w.graph.setEdges cell dependencies.cells
    watch := w.watch.set cell dependencies.ranges }

/-- Flags a cell and all that depends on it, and drops the results of what was not flagged yet. -/
def markDirty (w : Workbook) (cell : CellAddress) : Workbook :=
  { w with
    dirty := w.graph.markDirty w.watch.furtherEdges cell w.dirty
    store := (w.graph.newlyDirty w.watch.furtherEdges cell w.dirty).toList.foldl Store.invalidate
      w.store }

/-- Puts a content with its dependencies into a cell. -/
def write (w : Workbook) (cell : CellAddress) (content : CellContent) (usesNames : Bool)
    (dependencies : Dependencies) : Workbook :=
  { w with
    nameUsers := if usesNames then w.nameUsers.insert cell else w.nameUsers.erase cell
    store := w.store.set cell content }.wire cell dependencies |>.markDirty cell

/-- Puts a content that depends on nothing into a cell. -/
def writeLiteral (w : Workbook) (cell : CellAddress) (content : CellContent) : Workbook :=
  w.write cell content false .none

/-- Puts a formula into a cell. -/
def writeFormula (w : Workbook) (cell : CellAddress) (f : Formula) : Workbook :=
  w.write cell (.formula f none) (!f.names.isEmpty) (dependenciesOf w.names f)

/-- Empties a cell. -/
def clearCell (w : Workbook) (cell : CellAddress) : Workbook :=
  { w with
    nameUsers := w.nameUsers.erase cell
    store := w.store.erase cell }.wire cell .none |>.markDirty cell

/-- Ties the formula of a cell to what it depends on now. -/
def rewire (w : Workbook) (cell : CellAddress) : Workbook :=
  match w.store.formula? cell with
  | some f => (w.wire cell (dependenciesOf w.names f)).markDirty cell
  | none => w

/-- Whether the formula of a cell reaches a name. -/
def reachesName (w : Workbook) (name : String) (cell : CellAddress) : Bool :=
  match w.store.formula? cell with
  | some f => (w.names.closure f.names).contains name
  | none => false

/-- Binds a name and rewires the cells whose formulas reach it. -/
def bindName (w : Workbook) (name : String) (f : Formula) : Workbook :=
  let bound := { w with names := w.names.set name f }
  (bound.nameUsers.toList.filter (bound.reachesName name)).foldl rewire bound

/-- All cells that hold formulas, sheet by sheet and row by row. -/
def formulaCells (w : Workbook) : List CellAddress :=
  w.store.cells.keys.filter w.store.isFormula

end Workbook

end Spreadsheet
