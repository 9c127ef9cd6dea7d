/-
The value of an expression. Reading an expression gives an operand: a reference stays a reference,
anything else is a value. Where a value is needed a reference to one cell is looked up and a range
is a type mismatch; a function reads the cells of its references itself. A name stands for its
definition wherever it occurs, so a name bound to a range is a range among the arguments of a call.

Names nest: a definition may use further names. The context says how deep that can go, and a chain
of names longer than that can only be a circle. As long as there is room for all of them, a name is
followed to the same end where its value is needed and where a call looks for a reference among its
arguments (`Context.operand_of_resolves`).

Empty cells are counted in words of 64 bits, and sums of counts wrap round, as they do in a build
that does not check arithmetic. Where a build that does check it stops instead is said beside the
evaluator, in `Spreadsheet.Formula.Overflow`.
-/
import Spreadsheet.Formula.Expr
import Spreadsheet.Value

namespace Spreadsheet

/-- The values of the occupied cells of a range, row by row, and how many cells are empty, as a
word. -/
structure RangeReading where
  values : List Value
  empty : UInt64

/-- What an expression is evaluated in. -/
structure Context where
  /-- The value of a cell. -/
  lookup : CellAddress → Except Fault Value
  /-- The values of a range. -/
  readRange : Range → Except Fault RangeReading
  /-- What aggregates do with texts. -/
  policy : TextPolicy
  /-- The expression a name is bound to. -/
  definition : String → Except Fault Expr
  /-- How deep names can nest. -/
  nesting : Nat

/-- What has been read from a range when each of its cells has been looked up. -/
def RangeReading.ofValues (values : List Value) : RangeReading where
  values := values.filter fun v => !v.isEmpty
  empty := UInt64.ofNat (values.countP Value.isEmpty)

/-- Looks up every cell of a range, row by row; the first fault ends the reading. -/
def readEveryCell (lookup : CellAddress → Except Fault Value) (r : Range) :
    Except Fault RangeReading :=
  (r.cells.mapM lookup).map RangeReading.ofValues

/-- A context that reads ranges cell by cell. -/
def Context.plain (lookup : CellAddress → Except Fault Value) (policy : TextPolicy)
    (definition : String → Except Fault Expr) (nesting : Nat) : Context where
  lookup := lookup
  readRange := readEveryCell lookup
  policy := policy
  definition := definition
  nesting := nesting

/-- A context without cells and without names. -/
def Context.bare : Context :=
  .plain (fun _ => .ok .empty) .skip (fun _ => .error .nameNotFound) 0

/-- What an expression reads as. -/
inductive Operand where
  | value (v : Value)
  | reference (target : Reference)

/-- The value of an operand. -/
def Context.valueOf (ctx : Context) : Operand → Except Fault Value
  | .value v => .ok v
  | .reference (.cell cell) => ctx.lookup cell
  | .reference (.range _) => .error .typeMismatch

/-! ## Operators -/

/-- A number raised to a power. What is not a number is a type mismatch, and an infinite power of
zero is a division by zero. -/
def power (a b : Float) : Except Fault Float :=
  let result := a.pow b
  if result.isNaN then .error .typeMismatch
  else if result.isInf && a == 0 then .error .divisionByZero
  else .ok result

/-- An arithmetic operator on two numbers; comparisons are none. -/
def arithmetic (op : BinaryOp) (a b : Float) : Except Fault Float :=
  match op with
  | .add => .ok (a + b)
  | .sub => .ok (a - b)
  | .mul => .ok (a * b)
  | .div => if b == 0 then .error .divisionByZero else .ok (a / b)
  | .pow => power a b
  | .eq | .ne | .lt | .le | .gt | .ge => .error .typeMismatch

/-- Whether a comparison holds between values in a given order. -/
def BinaryOp.holds : BinaryOp → Ordering → Bool
  | eq, o => o == .eq
  | ne, o => o != .eq
  | lt, o => o == .lt
  | le, o => o != .gt
  | gt, o => o == .gt
  | ge, o => o != .lt
  | add, _ | sub, _ | mul, _ | div, _ | pow, _ => false

/-- An operator on two values. A comparison comes to one or zero and never fails; arithmetic needs
two numbers. -/
def applyBinary (op : BinaryOp) (left right : Value) : Except Fault Value :=
  if op.isComparison then .ok (.number (if op.holds (left.order right) then 1 else 0))
  else do
    let a ← left.asNumber
    let b ← right.asNumber
    return .number (← arithmetic op a b)

/-- A sign before a value. -/
def applyUnary (op : UnaryOp) (operand : Value) : Except Fault Value := do
  let x ← operand.asNumber
  return .number (match op with
    | .neg => -x
    | .plus => x)

/-! ## Functions -/

/-- The numbers that the arguments of an aggregate give, and how many cells were empty, as a word. -/
structure Numbers where
  values : List Float := []
  zeros : UInt64 := 0

namespace Numbers

/-- The numbers of two arguments together. The count wraps round where it is no word
(`Context.collectOverflows` says whether it does). -/
def append (a b : Numbers) : Numbers :=
  ⟨a.values ++ b.values, a.zeros + b.zeros⟩

/-- The numbers among values; a text is dealt with by the policy. -/
def ofValues (policy : TextPolicy) (values : List Value) : Except Fault Numbers :=
  if policy = .error && values.any Value.isText then .error .typeMismatch
  else .ok ⟨values.filterMap Value.number?, UInt64.ofNat (values.countP Value.isEmpty)⟩

/-- The numbers of a range. -/
def ofReading (policy : TextPolicy) (reading : RangeReading) : Except Fault Numbers :=
  (ofValues policy reading.values).map fun n => { n with zeros := reading.empty + n.zeros }

/-- The numbers in order, a zero last if any cell was empty. -/
def withZero (n : Numbers) : List Float :=
  if 0 < n.zeros then n.values ++ [0] else n.values

end Numbers

/-- The sum from left to right, starting from the zero that changes no number. -/
def sumOf (values : List Float) : Float :=
  values.foldl (· + ·) (-0.0)

/-- The greater number; of two equal ones the second, and what is not a number gives way. -/
def greater (a b : Float) : Float :=
  if a.isNaN || a ≤ b then b else a

/-- The lesser number; of two equal ones the second, and what is not a number gives way. -/
def lesser (a b : Float) : Float :=
  if a.isNaN || b ≤ a then b else a

/-- A choice between two numbers made over all of a list; zero for none. -/
def chooseFrom (choose : Float → Float → Float) : List Float → Float
  | [] => 0
  | x :: rest => rest.foldl choose x

/-- The average: empty cells count as zeros, and the average of nothing is a division by zero. -/
def averageOf (n : Numbers) : Except Fault Float :=
  let count := n.values.length.toFloat + n.zeros.toFloat
  if count == 0 then .error .divisionByZero else .ok (sumOf n.values / count)

/-- What an argument is before a function looks at it: an operand, or the fault of reading it. -/
abbrev Argument := Except Fault Operand

namespace Context

/-- The numbers of an argument of an aggregate. -/
def argumentNumbers (ctx : Context) (argument : Argument) : Except Fault Numbers := do
  match ← argument with
  | .reference target => Numbers.ofReading ctx.policy (← ctx.readRange target.asRange)
  | .value v => return ⟨[← v.asNumber], 0⟩

/-- The numbers of all arguments of an aggregate; the first fault among them wins. -/
def collect (ctx : Context) : List Argument → Except Fault Numbers
  | [] => .ok {}
  | argument :: rest => do
    let numbers ← ctx.argumentNumbers argument
    let others ← ctx.collect rest
    return numbers.append others

/--
The text of an argument of a concatenation: a reference gives the texts of its occupied cells.
-/
def argumentText (ctx : Context) (argument : Argument) : Except Fault String := do
  match ← argument with
  | .reference target =>
    let reading ← ctx.readRange target.asRange
    return String.join (reading.values.map Value.asText)
  | .value v => return v.asText

/-- The texts of all arguments of a concatenation together; the first fault among them wins. -/
def concatenateTexts (ctx : Context) : List Argument → Except Fault String
  | [] => .ok ""
  | argument :: rest => do
    let text ← ctx.argumentText argument
    let others ← ctx.concatenateTexts rest
    return text ++ others

/-- The number of characters of the text of an argument. -/
def measureText (ctx : Context) (argument : Argument) : Except Fault Float := do
  let v ← ctx.valueOf (← argument)
  return v.asText.length.toFloat

/-- The value of a call. A wrong number of arguments is found before any argument is looked at. -/
def apply (ctx : Context) (f : Function) (arguments : List Argument) : Except Fault Value :=
  if !f.arity.accepts arguments.length then .error .invalidArity
  else match f with
    | .sum => (ctx.collect arguments).map fun n => .number (sumOf n.values)
    | .average => (ctx.collect arguments).bind fun n => (averageOf n).map .number
    | .max => (ctx.collect arguments).map fun n => .number (chooseFrom greater n.withZero)
    | .min => (ctx.collect arguments).map fun n => .number (chooseFrom lesser n.withZero)
    | .len => (ctx.measureText (arguments.headD (.error .invalidArity))).map .number
    | .concatenate => (ctx.concatenateTexts arguments).map .text

end Context

/-! ## Expressions -/

mutual

/-- What an expression reads as, with the readings of its names given. -/
def Expr.operand (ctx : Context) (named : String → Except Fault Operand) :
    Expr → Except Fault Operand
  | .number x => .ok (.value (.number x))
  | .text s => .ok (.value (.text s))
  | .reference target => .ok (.reference target)
  | .name n => named n
  | .call f arguments => (ctx.apply f (operandsOf ctx named arguments)).map .value
  | .binary op left right => do
    let a ← ctx.valueOf (← left.operand ctx named)
    let b ← ctx.valueOf (← right.operand ctx named)
    return .value (← applyBinary op a b)
  | .unary op operand => do
    let a ← ctx.valueOf (← operand.operand ctx named)
    return .value (← applyUnary op a)

/-- What the arguments of a call read as. -/
def operandsOf (ctx : Context) (named : String → Except Fault Operand) : List Expr → List Argument
  | [] => []
  | e :: rest => e.operand ctx named :: operandsOf ctx named rest

end

namespace Context

/-- What a name reads as when names may still nest to a given depth. -/
def named (ctx : Context) : Nat → String → Except Fault Operand
  | 0, n => (ctx.definition n).bind fun _ => .error .circularName
  | depth + 1, n => (ctx.definition n).bind fun body => body.operand ctx (ctx.named depth)

/-- What an expression reads as. -/
def operand (ctx : Context) (e : Expr) : Except Fault Operand :=
  e.operand ctx (ctx.named ctx.nesting)

/-- The value of an expression. -/
def evaluate (ctx : Context) (e : Expr) : Except Fault Value :=
  (ctx.operand e).bind ctx.valueOf

/-- What a formula with this expression comes to. -/
def result (ctx : Context) (e : Expr) : CellResult :=
  match ctx.evaluate e with
  | .ok v => v.toResult
  | .error fault => .error fault

/-! ## Following names -/

/-- What an expression comes down to while it is a name: an expression that is none, or the fault of
a name without an expression. -/
inductive Resolves (ctx : Context) : Expr → Except Fault Expr → Prop
  | here {e : Expr} : e.name? = none → Resolves ctx e (.ok e)
  | fault {n : String} {fault : Fault} : ctx.definition n = .error fault →
      Resolves ctx (.name n) (.error fault)
  | follow {n : String} {body : Expr} {r : Except Fault Expr} : ctx.definition n = .ok body →
      Resolves ctx body r → Resolves ctx (.name n) r

/-- **What an expression comes down to reads as the expression does**, if there is room for all names
to nest, so that each reads as its expression. -/
theorem operand_of_resolves {ctx : Context}
    (hroom : ∀ n, ctx.named ctx.nesting n = (ctx.definition n).bind ctx.operand) {e : Expr}
    {r : Except Fault Expr} (h : ctx.Resolves e r) : ctx.operand e = r.bind ctx.operand := by
  induction h with
  | here => rfl
  | fault hdef => rw [operand, Expr.operand, hroom, hdef]
  | follow hdef _ ih =>
    rw [← ih, operand, Expr.operand, hroom, hdef]
    rfl

end Context

end Spreadsheet
