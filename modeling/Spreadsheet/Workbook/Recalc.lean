/-
Recalculation. The dirty formulas are planned; the members of cycles and what leads to them get
their faults, and the others are evaluated in order, each against the results before it. Afterwards
nothing is dirty. The report counts what was done.
-/
import Spreadsheet.Workbook.Basic
import Spreadsheet.Report

namespace Spreadsheet

namespace Workbook

/-- The dirty cells that hold formulas. -/
def targets (w : Workbook) : CellSet :=
  w.dirty.filter w.store.isFormula

/-- The plan for the dirty formulas. -/
def plan (w : Workbook) : Plan CellAddress :=
  w.graph.plan (fun cell => w.watch.watchedAmong cell w.targets) w.targets

/-- The store with the same fault as the result of every listed cell. -/
def putFaults (fault : Fault) (cells : List CellAddress) (s : Store) : Store :=
  cells.foldl (fun s cell => s.setResult cell (.error fault)) s

/-- A store under calculation, and how many formulas came to anything and to a fault so far. -/
structure Progress where
  store : Store
  evaluated : Nat
  errors : Nat

/-- Calculates one cell. -/
def calculateCell (w : Workbook) (p : Progress) (cell : CellAddress) : Progress :=
  match p.store.formula? cell with
  | none => p
  | some f =>
    let result := (p.store.context w.names w.policy).result f.tree
    { store := p.store.setResult cell result
      evaluated := p.evaluated + 1
      errors := p.errors + if result.isError then 1 else 0 }

/-- Calculates the cells of a plan. -/
def runPlan (w : Workbook) (plan : Plan CellAddress) : Progress :=
  let marked := putFaults .refUnavailable plan.cycleDependents
    (putFaults .circularReference plan.cycleMembers w.store)
  plan.order.foldl w.calculateCell ⟨marked, 0, 0⟩

/-- Calculates every dirty formula. -/
def calculate (w : Workbook) : Workbook × Report :=
  let plan := w.plan
  let done := w.runPlan plan
  ({ w with store := done.store, dirty := ∅ },
    { dirtyCells := w.dirty.size
      evaluated := done.evaluated
      cycleMembers := plan.cycleMembers.length
      cycleDependents := plan.cycleDependents.length
      errorResults := done.errors
      elapsed := 0 })

end Workbook

end Spreadsheet
