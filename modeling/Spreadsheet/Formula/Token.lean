/-
The tokens of a formula, each with the place it starts at, and the reasons for which a formula
cannot be read. Places count characters from the start of the formula, a leading `=` included.
-/
import Spreadsheet.Decimal.Layout

namespace Spreadsheet

/-- The operators that stand between two operands. -/
inductive BinaryOp where
  | add
  | sub
  | mul
  | div
  | pow
  | eq
  | ne
  | lt
  | le
  | gt
  | ge
deriving DecidableEq, Inhabited

namespace BinaryOp

/-- How an operator is written. -/
def symbol : BinaryOp → String
  | add => "+"
  | sub => "-"
  | mul => "*"
  | div => "/"
  | pow => "^"
  | eq => "="
  | ne => "<>"
  | lt => "<"
  | le => "<="
  | gt => ">"
  | ge => ">="

/-- Whether an operator compares its operands. -/
def isComparison : BinaryOp → Bool
  | eq | ne | lt | le | gt | ge => true
  | add | sub | mul | div | pow => false

end BinaryOp

/-- A token of a formula. -/
inductive Token where
  | number (value : Float)
  | text (content : String)
  | identifier (name : String)
  | quotedName (name : String)
  | operator (op : BinaryOp)
  | openParen
  | closeParen
  | comma
  | colon
  | bang
deriving Inhabited

/-- A token as messages show it; quotes inside a text or a quoted name stand undoubled. -/
def Token.shown : Token → String
  | number value => plainNumber.text value
  | text content => "\"" ++ content ++ "\""
  | identifier name => name
  | quotedName name => "'" ++ name ++ "'"
  | operator op => op.symbol
  | openParen => "("
  | closeParen => ")"
  | comma => ","
  | colon => ":"
  | bang => "!"

/-- A token and the place it starts at. -/
structure PlacedToken where
  token : Token
  position : Nat
deriving Inhabited

/-- Why a formula cannot be read. -/
inductive SyntaxFault where
  | unbalancedParen
  | unknownFunction (name : String)
  | malformedReference (text : String)
  | unknownSheet (name : String)
  | trailingTokens
  | unexpectedToken (shown : String)
  | unexpectedEnd
  | emptyFormula
  | invalidCharacter (c : Char)
  | invalidNumber (text : String)
  | unterminatedText
deriving DecidableEq, Inhabited

/-- What a fault says. -/
def SyntaxFault.message : SyntaxFault → String
  | unbalancedParen => "unbalanced parentheses"
  | unknownFunction name => "unknown function '" ++ name ++ "'"
  | malformedReference text => "malformed reference '" ++ text ++ "'"
  | unknownSheet name => "unknown sheet '" ++ name ++ "'"
  | trailingTokens => "unexpected input after the end of the expression"
  | unexpectedToken shown => "unexpected token '" ++ shown ++ "'"
  | unexpectedEnd => "unexpected end of formula"
  | emptyFormula => "empty formula"
  | invalidCharacter c => "invalid character '" ++ c.toString ++ "'"
  | invalidNumber text => "invalid number '" ++ text ++ "'"
  | unterminatedText => "unterminated quoted text"

/-- A fault and the place it was found at. -/
structure SyntaxError where
  fault : SyntaxFault
  position : Nat
deriving DecidableEq, Inhabited

/-- What an error says. -/
def SyntaxError.message (e : SyntaxError) : String :=
  e.fault.message ++ " at position " ++ decimalText e.position

end Spreadsheet
