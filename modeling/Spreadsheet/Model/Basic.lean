/-
Models: what a workbook is loaded from. A model names its sheets, perhaps names for expressions, and
the entries to write into cells. Names and the entries of a sheet are kept in ascending order of
their keys, which are texts: two keys may well mean one cell.
-/
import Spreadsheet.Value
import Spreadsheet.Workbook.Basic

namespace Spreadsheet

/-- What a model puts into a cell. -/
inductive CellEntry where
  | boolean (truth : Bool)
  | number (value : Float)
  /-- A text, or a formula if it starts with `=`. -/
  | text (content : String)
  /-- A text whatever it starts with. -/
  | literal (content : String)
  /-- A formula whatever it starts with. -/
  | formula (source : String)
deriving Inhabited

/-- The input that an entry is. -/
def CellEntry.toInput : CellEntry → CellInput
  | boolean b => .boolean b
  | number x => .number x
  | text s => if s.toList.head? = some '=' then .formula s else .text s
  | literal s => .text s
  | formula s => .formula s

/-- A sheet of a model. -/
structure SheetModel where
  name : String
  cells : Std.ExtTreeMap String CellEntry

/-- A model. -/
structure Model where
  policy : TextPolicy
  names : Std.ExtTreeMap String String
  sheets : List SheetModel

end Spreadsheet
