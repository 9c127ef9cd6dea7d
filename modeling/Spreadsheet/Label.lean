/-
Labels of columns and cells. Columns are counted A, B, …, Z, AA, AB, …: the letters are the digits
1 to 26 of a base-26 numeral without a zero, so every column has exactly one label in capitals.
A cell label is the column's letters and the row number counted from one. Reading also accepts
small letters, a `$` before either part and leading zeros, and refuses whatever lies outside the
32-bit grid.
-/
import Spreadsheet.Address
import Spreadsheet.Decimal.Digits

namespace Spreadsheet

/-- The capital letter for a base-26 digit between 0 and 25. -/
def columnLetter (digit : Nat) : Char :=
  Char.ofNat ('A'.toNat + digit)

/-- The letters of the column with a one-based number; none for zero. -/
def columnLetters (number : Nat) : List Char :=
  if number = 0 then []
  else columnLetters ((number - 1) / 26) ++ [columnLetter ((number - 1) % 26)]
termination_by number
decreasing_by omega

/-- The label of a column. -/
def columnLabel (col : UInt32) : String :=
  String.ofList (columnLetters (col.toNat + 1))

/-- What a letter counts as a base-26 digit, in either case: A is 1 and Z is 26. -/
def columnDigit (c : Char) : Nat :=
  c.toUpper.toNat - 'A'.toNat + 1

/-- The one-based number that letters spell. -/
def columnNumber (letters : List Char) : Nat :=
  letters.foldl (fun n c => n * 26 + columnDigit c) 0

/-- The number of rows, and of columns, in the grid. -/
def gridSize : Nat := UInt32.size

/-- The column that letters name, if they are ASCII letters and lie in the grid. -/
def readColumn (letters : List Char) : Option UInt32 :=
  if letters.isEmpty || !letters.all Char.isAlpha then none
  else
    let number := columnNumber letters
    if number ≤ gridSize then some (UInt32.ofNat (number - 1)) else none

/-- The column that a text names. -/
def parseColumnLabel (label : String) : Option UInt32 :=
  readColumn label.toList

/-- The row that digits name, if it lies in the grid. -/
def readRow (digits : List Char) : Option UInt32 :=
  if digits.isEmpty || !digits.all Char.isDigit then none
  else
    let number := decimalNumber digits
    if 1 ≤ number ∧ number ≤ gridSize then some (UInt32.ofNat (number - 1)) else none

/-- A text without the dollar sign it may start with. -/
def dropDollar : List Char → List Char
  | '$' :: rest => rest
  | s => s

/-- The letters of a label, between the optional dollar signs. -/
def labelLetters (s : List Char) : List Char :=
  (dropDollar s).takeWhile Char.isAlpha

/-- What follows the letters of a label and the dollar sign after them. -/
def labelDigits (s : List Char) : List Char :=
  dropDollar ((dropDollar s).dropWhile Char.isAlpha)

/-- The row and column that a cell label names. -/
def readLabel (s : List Char) : Option (UInt32 × UInt32) := do
  let col ← readColumn (labelLetters s)
  let row ← readRow (labelDigits s)
  return (row, col)

/-- The row and column that a cell label names. -/
def parseLabel (label : String) : Option (UInt32 × UInt32) :=
  readLabel label.toList

/-- Whether a text has the shape of a cell label, in or outside the grid. -/
def isLabelShaped (s : List Char) : Bool :=
  let digits := labelDigits s
  !(labelLetters s).isEmpty && !digits.isEmpty && digits.all Char.isDigit

/-- The label of the cell at a row and column. -/
def positionLabel (row col : UInt32) : String :=
  columnLabel col ++ decimalText (row.toNat + 1)

/-- The label of a cell, without its sheet. -/
def CellAddress.label (cell : CellAddress) : String :=
  positionLabel cell.row cell.col

/-- The label of a range, without its sheet: the two corners around a colon. -/
def Range.label (r : Range) : String :=
  positionLabel r.firstRow r.firstCol ++ ":" ++ positionLabel r.lastRow r.lastCol

end Spreadsheet
