/-
What formulas compute with and what they come to. A value is a number, a text or nothing; nothing
counts as zero among numbers and as the empty text among texts. A formula comes to a number, a text
or a fault, and every fault has a short code to show in the cell.
-/
import Spreadsheet.Decimal.Layout

namespace Spreadsheet

/-- Why a formula has no value. -/
inductive Fault where
  | divisionByZero
  | typeMismatch
  | invalidArity
  | circularReference
  | refUnavailable
  | nameNotFound
  | circularName
deriving DecidableEq, Inhabited

namespace Fault

/-- The code a cell shows. -/
def code : Fault → String
  | divisionByZero => "#DIV/0!"
  | typeMismatch => "#VALUE!"
  | invalidArity => "#N/A"
  | circularReference => "#CIRCULAR!"
  | refUnavailable => "#REF!"
  | nameNotFound => "#NAME?"
  | circularName => "#CIRCNAME!"

/-- What a fault means. -/
def description : Fault → String
  | divisionByZero => "division by zero"
  | typeMismatch => "operand has the wrong type"
  | invalidArity => "wrong number of function arguments"
  | circularReference => "cell is part of a circular reference"
  | refUnavailable => "referenced result is not available"
  | nameNotFound => "named expression is not defined"
  | circularName => "named expression refers back to itself"

end Fault

/-- What a formula comes to. -/
inductive CellResult where
  | number (value : Float)
  | text (content : String)
  | error (fault : Fault)
deriving Inhabited

namespace CellResult

/-- Whether a result is a fault. -/
def isError : CellResult → Bool
  | error _ => true
  | number _ | text _ => false

/-- A result as a cell shows it. -/
def shown : CellResult → String
  | number x => numberText x
  | text s => s
  | error e => e.code

end CellResult

/-- A value inside a formula. -/
inductive Value where
  | number (value : Float)
  | text (content : String)
  | empty
deriving Inhabited

namespace Value

/-- Whether a value is nothing. -/
def isEmpty : Value → Bool
  | empty => true
  | number _ | text _ => false

/-- Whether a value is a text. -/
def isText : Value → Bool
  | text _ => true
  | number _ | empty => false

/-- The number that a value is, if it is one. -/
def number? : Value → Option Float
  | number x => some x
  | text _ | empty => none

/-- A value as a number; a text is none, whatever it spells. -/
def asNumber : Value → Except Fault Float
  | number x => .ok x
  | text _ => .error .typeMismatch
  | empty => .ok 0

/-- A value as a text. -/
def asText : Value → String
  | number x => numberText x
  | text s => s
  | empty => ""

/-- The result a value makes in a cell. -/
def toResult : Value → CellResult
  | number x => .number x
  | text s => .text s
  | empty => .number 0

/-- How two numbers compare; one that is not a number is not told apart from any other. -/
def compareNumbers (a b : Float) : Ordering :=
  if a < b then .lt else if b < a then .gt else .eq

/-- How two values compare: numbers stand before texts, and nothing is a zero beside a number and
the empty text beside a text. -/
def order : Value → Value → Ordering
  | number a, number b => compareNumbers a b
  | number a, empty => compareNumbers a 0
  | number _, text _ => .lt
  | empty, number b => compareNumbers 0 b
  | empty, empty => .eq
  | empty, text b => compare "" b
  | text _, number _ => .gt
  | text a, empty => compare a ""
  | text a, text b => compare a b

end Value

/-- What an aggregate does with a text among the cells of its ranges. -/
inductive TextPolicy where
  /-- The text counts for nothing. -/
  | skip
  /-- The text is a fault. -/
  | error
deriving DecidableEq, Inhabited

end Spreadsheet
