/-
Loading a model. The sheets come first, so that formulas can refer to any of them; then the names in
ascending order; then the cells, sheet by sheet and in ascending order of their keys. An entry that
fails is listed as a problem and leaves nothing behind; only two sheets of one name stop the
loading.
-/
import Spreadsheet.Model.Basic
import Spreadsheet.Workbook.Edit

namespace Spreadsheet

/-- Which entry of a model: that of a name, or that of a key on a sheet. -/
inductive EntryPlace where
  | name (name : String)
  | cell (sheet key : String)
deriving DecidableEq, Inhabited

/-- An entry as messages show it: the name, or the sheet and the key as they are written. -/
def EntryPlace.shown : EntryPlace → String
  | name n => n
  | cell sheet key => sheet ++ "!" ++ key

/-- An entry that could not be loaded, and why. -/
structure Problem where
  entry : EntryPlace
  failure : Failure
deriving Inhabited

/-- A workbook with what was loaded, and the problems in the order in which they were found. -/
structure Loaded where
  workbook : Workbook
  problems : List Problem

namespace Loaded

/-- Goes on with the workbook that an operation leaves; its failure is the problem of an entry. -/
def note (l : Loaded) (entry : EntryPlace) (outcome : Workbook × Except Failure Unit) : Loaded where
  workbook := outcome.1
  problems := match outcome.2 with
    | .ok () => l.problems
    | .error failure => l.problems ++ [⟨entry, failure⟩]

/-- Binds a name. -/
def addName (l : Loaded) (entry : String × String) : Loaded :=
  l.note (.name entry.1) (l.workbook.defineName entry.1 entry.2)

/-- Writes an entry of a sheet into its cell. -/
def writeEntry (w : Workbook) (sheet : Nat) (key : String) (entry : CellEntry) :
    Workbook × Except Failure Unit :=
  match parseLabel key with
  | none => (w, .error (.invalidAddress key))
  | some (row, col) => w.setCell ⟨sheet, row, col⟩ entry.toInput

/-- Writes an entry of the sheet with a number and a name. -/
def addCell (sheet : Nat) (name : String) (l : Loaded) (entry : String × CellEntry) : Loaded :=
  l.note (.cell name entry.1) (writeEntry l.workbook sheet entry.1 entry.2)

/-- Writes all entries of a sheet. -/
def addCells (l : Loaded) (sheet : SheetModel × Nat) : Loaded :=
  sheet.1.cells.toList.foldl (addCell sheet.2 sheet.1.name) l

/-- The workbook if there are no problems. -/
def complete (l : Loaded) : Except Failure Workbook :=
  match l.problems with
  | [] => .ok l.workbook
  | first :: _ => .error (.entriesFailed l.problems.length first.entry.shown first.failure)

end Loaded

namespace Model

/-- Appends the sheets in order. -/
def appendSheets (w : Workbook) : List SheetModel → Except Failure Workbook
  | [] => .ok w
  | sheet :: rest =>
    match w.appendSheet sheet.name with
    | (w, .ok _) => appendSheets w rest
    | (_, .error failure) => .error failure

/-- Loads a model. -/
def load (m : Model) : Except Failure Loaded :=
  (appendSheets (.empty m.policy) m.sheets).map fun w =>
    let named := m.names.toList.foldl Loaded.addName ⟨w, []⟩
    m.sheets.zipIdx.foldl Loaded.addCells named

end Model

end Spreadsheet
