/-
The tree of a formula. References are resolved to addresses and names are left to be looked up
when the formula is evaluated. `Expr.uses` lists what a tree refers to, every reference and every
name once, in the order in which they first occur from left to right; `Expr.leaves` lists the leaves
themselves, as often as they occur. `Expr.substitute` puts expressions in place of names.
-/
import Spreadsheet.Address
import Spreadsheet.Formula.Function
import Spreadsheet.Formula.Token

namespace Spreadsheet

/-- The operators that stand before one operand. -/
inductive UnaryOp where
  | neg
  | plus
deriving DecidableEq, Inhabited

/-- The symbol of a unary operator, as an operator between operands has it. -/
def UnaryOp.symbol : UnaryOp → BinaryOp
  | neg => .sub
  | plus => .add

/-- An expression. -/
inductive Expr where
  | number (value : Float)
  | text (content : String)
  | reference (target : Reference)
  | name (name : String)
  | call (function : Function) (arguments : List Expr)
  | binary (op : BinaryOp) (left right : Expr)
  | unary (op : UnaryOp) (operand : Expr)
deriving Inhabited

/-- What an expression refers to. -/
structure Uses where
  references : List Reference := []
  names : List String := []
deriving DecidableEq

/-- A list with an element at its end, unless it already holds the element. -/
def appendNew {α} [DecidableEq α] (l : List α) (a : α) : List α :=
  if a ∈ l then l else l ++ [a]

mutual

/-- What has been found so far, and after it what an expression refers to. -/
def Expr.addUses (found : Uses) : Expr → Uses
  | .number _ => found
  | .text _ => found
  | .reference target => { found with references := appendNew found.references target }
  | .name n => { found with names := appendNew found.names n }
  | .call _ arguments => addUsesOfAll found arguments
  | .binary _ left right => right.addUses (left.addUses found)
  | .unary _ operand => operand.addUses found

/-- What has been found so far, and after it what the expressions of a list refer to. -/
def addUsesOfAll (found : Uses) : List Expr → Uses
  | [] => found
  | e :: rest => addUsesOfAll (e.addUses found) rest

end

/-- What an expression refers to. -/
def Expr.uses (e : Expr) : Uses :=
  e.addUses {}

/-- The reference that an expression is, if it is one. -/
def Expr.reference? : Expr → Option Reference
  | .reference target => some target
  | .number _ | .text _ | .name _ | .call _ _ | .binary _ _ _ | .unary _ _ => none

/-- The name that an expression is, if it is one. -/
def Expr.name? : Expr → Option String
  | .name n => some n
  | .number _ | .text _ | .reference _ | .call _ _ | .binary _ _ _ | .unary _ _ => none

mutual

/-- The leaves of an expression from left to right. -/
def Expr.leaves : Expr → List Expr
  | .number x => [.number x]
  | .text s => [.text s]
  | .reference target => [.reference target]
  | .name n => [.name n]
  | .call _ arguments => leavesOfAll arguments
  | .binary _ left right => left.leaves ++ right.leaves
  | .unary _ operand => operand.leaves

/-- The leaves of the expressions of a list. -/
def leavesOfAll : List Expr → List Expr
  | [] => []
  | e :: rest => e.leaves ++ leavesOfAll rest

end

mutual

/-- An expression with another in place of each name. -/
def Expr.substitute (body : String → Expr) : Expr → Expr
  | .number x => .number x
  | .text s => .text s
  | .reference target => .reference target
  | .name n => body n
  | .call f arguments => .call f (substituteAll body arguments)
  | .binary op left right => .binary op (left.substitute body) (right.substitute body)
  | .unary op operand => .unary op (operand.substitute body)

/-- The expressions of a list with others in place of each name. -/
def substituteAll (body : String → Expr) : List Expr → List Expr
  | [] => []
  | e :: rest => e.substitute body :: substituteAll body rest

end

end Spreadsheet
