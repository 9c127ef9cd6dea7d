/-
The kinds of phrases a formula is built of, from the loosest to the tightest: comparisons, sums,
products, powers, signed operands and operands. The operators of the first three kinds group to the
left, a power groups to the right, and a sign binds tighter than a power. Reading and printing
formulas share this table, so that a phrase is printed in parentheses where it would be read apart.
-/
import Spreadsheet.Formula.Token

namespace Spreadsheet

/-- A kind of phrase. -/
inductive Phrase where
  | comparison
  | sum
  | product
  | power
  | signed
  | operand
deriving DecidableEq, Inhabited

namespace Phrase

/-- The kind that a phrase of a kind is made of; an operand is made of nothing tighter. -/
def tighter : Phrase → Phrase
  | comparison => sum
  | sum => product
  | product => power
  | power => signed
  | signed => operand
  | operand => operand

/-- The operators that stand between phrases of the next tighter kind and group to the left. -/
def operators : Phrase → List BinaryOp
  | comparison => [.eq, .ne, .lt, .le, .gt, .ge]
  | sum => [.add, .sub]
  | product => [.mul, .div]
  | power | signed | operand => []

/-- How tightly a kind binds. -/
def strength : Phrase → Nat
  | comparison => 0
  | sum => 1
  | product => 2
  | power => 3
  | signed => 4
  | operand => 5

end Phrase

namespace BinaryOp

/-- The kind of phrase that an operator makes. -/
def phrase : BinaryOp → Phrase
  | add | sub => .sum
  | mul | div => .product
  | pow => .power
  | eq | ne | lt | le | gt | ge => .comparison

/-- The kind of phrase that stands before an operator. -/
def leftPhrase : BinaryOp → Phrase
  | pow => .signed
  | op => op.phrase

/-- The kind of phrase that stands after an operator. -/
def rightPhrase : BinaryOp → Phrase
  | pow => .power
  | op => op.phrase.tighter

theorem mem_operators_phrase {op : BinaryOp} (h : op ≠ pow) : op ∈ op.phrase.operators := by
  cases op <;> simp_all [phrase, Phrase.operators]

end BinaryOp

end Spreadsheet
