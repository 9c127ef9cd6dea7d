/-
Finding a cell by what a user types: a label, with or without a sheet name and `!` before it.
Without a name the first sheet is meant. A name stands bare or in single quotes; inside quotes a
quote is written twice. Blanks around the whole are ignored.
-/
import Spreadsheet.Text.Line
import Spreadsheet.Workbook.Basic

namespace Spreadsheet

/-- The text behind the last `!`, and the text before it if there is one. -/
def splitAtLastBang (s : List Char) : Option (List Char) × List Char :=
  let label := (s.reverse.takeWhile (· != '!')).reverse
  if label.length = s.length then (none, s)
  else (some (s.take (s.length - label.length - 1)), label)

/-- A text with each doubled quote read as one; none if a quote stands alone. -/
def undoubleQuotes (quote : Char) : List Char → Option (List Char)
  | [] => some []
  | [c] => if c = quote then none else some [c]
  | c :: d :: rest =>
    if c = quote then
      if d = quote then (undoubleQuotes quote rest).map (quote :: ·) else none
    else (undoubleQuotes quote (d :: rest)).map (c :: ·)

/-- The content of a text in quotes, which must not be empty. -/
def readQuotedName (rest : List Char) : Option (List Char) :=
  match rest.reverse with
  | '\'' :: inner => if inner.isEmpty then none else undoubleQuotes '\'' inner.reverse
  | _ => none

/-- The sheet name written before a `!`. -/
def readSheetName : List Char → Option (List Char)
  | [] => none
  | '\'' :: rest => readQuotedName rest
  | s => if s.any fun c => c == '\'' || c == '!' then none else some s

namespace Workbook

/-- The cell at a label on a sheet. -/
def locateOn (text : String) (label : List Char) (sheet : Nat) : Except Failure CellAddress :=
  match readLabel label with
  | some (row, col) => .ok ⟨sheet, row, col⟩
  | none => .error (.invalidAddress text)

/-- The cell that a text names. -/
def locate (w : Workbook) (text : String) : Except Failure CellAddress :=
  match splitAtLastBang (trimChars text.toList) with
  | (written, label) =>
    if !isLabelShaped label then .error (.invalidAddress text)
    else match written with
      | none =>
        if w.store.hasSheet 0 then locateOn text label 0 else .error (.unknownSheet "")
      | some written =>
        match readSheetName written with
        | none => .error (.invalidAddress text)
        | some name =>
          match w.store.sheetNamed? (String.ofList name) with
          | some sheet => locateOn text label sheet
          | none => .error (.unknownSheet (String.ofList name))

end Workbook

end Spreadsheet
