/-
What a user can do to a workbook. Each operation answers, or says why it cannot be done, and leaves
a workbook behind; when it cannot be done the workbook is the one before.
-/
import Spreadsheet.Workbook.Basic

namespace Spreadsheet

namespace Workbook

/-- The failure to name a sheet by a number that no sheet has. -/
def checkSheet (w : Workbook) (sheet : Nat) : Except Failure Unit :=
  if w.store.hasSheet sheet then .ok () else .error (.unknownSheet ("#" ++ decimalText sheet))

/-- Appends a sheet, whose name no other sheet may have, and answers its number. -/
def appendSheet (w : Workbook) (name : String) : Workbook × Except Failure Nat :=
  match w.store.sheetNamed? name with
  | some _ => (w, .error (.duplicateSheet name))
  | none => ({ w with store := w.store.addSheet name }, .ok w.store.sheetCount)

/-- Reads a formula whose bare labels lie on a sheet. -/
def readFormula (w : Workbook) (sheet : Nat) (source : String) : Except Failure Formula :=
  match Formula.parse source sheet w.store.sheetNamed? with
  | .ok f => .ok f
  | .error cause => .error (.formula source cause)

/-- Puts a formula into a cell of a sheet that exists. -/
def setFormula (w : Workbook) (cell : CellAddress) (source : String) :
    Workbook × Except Failure Unit :=
  match w.readFormula cell.sheet source with
  | .ok f => (w.writeFormula cell f, .ok ())
  | .error failure => (w, .error failure)

/-- Puts an input into a cell. -/
def setCell (w : Workbook) (cell : CellAddress) (input : CellInput) :
    Workbook × Except Failure Unit :=
  match w.checkSheet cell.sheet with
  | .error failure => (w, .error failure)
  | .ok () =>
    match input with
    | .number x => (w.writeLiteral cell (.number x), .ok ())
    | .text s => (w.writeLiteral cell (.text s), .ok ())
    | .boolean b => (w.writeLiteral cell (.boolean b), .ok ())
    | .formula source => w.setFormula cell source

/-- Empties a cell. -/
def eraseCell (w : Workbook) (cell : CellAddress) : Workbook × Except Failure Unit :=
  match w.checkSheet cell.sheet with
  | .error failure => (w, .error failure)
  | .ok () => (w.clearCell cell, .ok ())

/-- Binds a name to an expression, whose bare labels lie on the first sheet. -/
def defineName (w : Workbook) (name source : String) : Workbook × Except Failure Unit :=
  if isValidName name then
    match w.checkSheet 0 with
    | .error failure => (w, .error failure)
    | .ok () =>
      match w.readFormula 0 source with
      | .ok f => (w.bindName name f, .ok ())
      | .error failure => (w, .error failure)
  else (w, .error (.invalidName name))

/-- Changes what aggregates do with texts; every formula has to be calculated again. -/
def setPolicy (w : Workbook) (policy : TextPolicy) : Workbook :=
  if policy = w.policy then w
  else
    let changed := { w with policy := policy }
    changed.formulaCells.foldl markDirty changed

end Workbook

end Spreadsheet
