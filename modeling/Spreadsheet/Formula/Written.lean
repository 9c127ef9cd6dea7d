/-
How tokens can be written. A text or a quoted name has one written form, its quotes doubled; a
number can be written as any literal that reads as it, and the other tokens as themselves.
-/
import Spreadsheet.Formula.Lexer

namespace Spreadsheet

/-- Whether a text is one literal, from its first character to its last, for a number. -/
def IsLiteral (s : List Char) (x : Float) : Prop :=
  s.head?.any isNumberStart = true ∧ spanNumber s = (s, []) ∧ readNumber s = some x

/-- A token and a text it can be written as. -/
inductive Token.WrittenAs : Token → List Char → Prop where
  | number {x : Float} {s : List Char} : IsLiteral s x → WrittenAs (.number x) s
  | text (content : String) : WrittenAs (.text content) (enquote '"' content.toList)
  | quotedName (name : String) : WrittenAs (.quotedName name) (enquote '\'' name.toList)
  | identifier {c : Char} {s : List Char} :
    isIdentifierStart c = true → s.all isIdentifierPart = true →
    WrittenAs (.identifier (String.ofList (c :: s))) (c :: s)
  | operator (op : BinaryOp) : WrittenAs (.operator op) op.symbol.toList
  | openParen : WrittenAs .openParen ['(']
  | closeParen : WrittenAs .closeParen [')']
  | comma : WrittenAs .comma [',']
  | colon : WrittenAs .colon [':']
  | bang : WrittenAs .bang ['!']

end Spreadsheet
