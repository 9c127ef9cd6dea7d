/-
From a tree back to text. References are written with their sheets, both ends of a range too, and
parentheses only where a phrase would be read apart without them. Which literal a number is written
as is the caller's choice.
-/
import Spreadsheet.Formula.Expr
import Spreadsheet.Formula.Phrase
import Spreadsheet.Formula.Written

namespace Spreadsheet

/-- The kind of phrase that an expression is, without parentheses around it. -/
def Expr.phrase : Expr → Phrase
  | .binary op _ _ => op.phrase
  | .unary _ _ => .signed
  | .number _ | .text _ | .reference _ | .name _ | .call _ _ => .operand

/-- The tokens of a phrase where a kind is needed, in parentheses if it binds less tightly. -/
def Phrase.enclose (needed actual : Phrase) (tokens : List Token) : List Token :=
  if needed.strength ≤ actual.strength then tokens else .openParen :: tokens ++ [.closeParen]

/-- The token of a sheet name before a reference. -/
def sheetToken (name : String) : Token :=
  if isPlainSheetName name.toList then .identifier name else .quotedName name

/-- The tokens of a cell with its sheet. -/
def CellAddress.tokens (sheetName : Nat → String) (cell : CellAddress) : List Token :=
  [sheetToken (sheetName cell.sheet), .bang, .identifier cell.label]

/-- The cells at the upper left and the lower right of a range. -/
def Range.corners (r : Range) : CellAddress × CellAddress :=
  (⟨r.sheet, r.firstRow, r.firstCol⟩, ⟨r.sheet, r.lastRow, r.lastCol⟩)

/-- The tokens of a reference with its sheet. -/
def Reference.tokens (sheetName : Nat → String) : Reference → List Token
  | cell a => a.tokens sheetName
  | range r => r.corners.1.tokens sheetName ++ .colon :: r.corners.2.tokens sheetName

mutual

/-- The tokens of an expression. -/
def Expr.tokens (sheetName : Nat → String) : Expr → List Token
  | .number x => [.number x]
  | .text s => [.text s]
  | .reference target => target.tokens sheetName
  | .name n => [.identifier n]
  | .call f arguments =>
    .identifier f.name :: .openParen :: argumentTokens sheetName arguments ++ [.closeParen]
  | .binary op left right =>
    op.leftPhrase.enclose left.phrase (left.tokens sheetName) ++
      .operator op :: op.rightPhrase.enclose right.phrase (right.tokens sheetName)
  | .unary op operand =>
    .operator op.symbol :: Phrase.signed.enclose operand.phrase (operand.tokens sheetName)

/-- The tokens of the arguments of a call. -/
def argumentTokens (sheetName : Nat → String) : List Expr → List Token
  | [] => []
  | [e] => e.tokens sheetName
  | e :: rest => e.tokens sheetName ++ .comma :: argumentTokens sheetName rest

end

/-- A token as it is written, numbers as the literals given for them. -/
def Token.written (literal : Float → List Char) : Token → List Char
  | number x => literal x
  | text content => enquote '"' content.toList
  | quotedName name => enquote '\'' name.toList
  | identifier name => name.toList
  | operator op => op.symbol.toList
  | openParen => ['(']
  | closeParen => [')']
  | comma => [',']
  | colon => [':']
  | bang => ['!']

/-- The text of an expression, tokens written one directly after the other. -/
def Expr.print (literal : Float → List Char) (sheetName : Nat → String) (e : Expr) : String :=
  String.ofList ((e.tokens sheetName).flatMap (Token.written literal))

end Spreadsheet
