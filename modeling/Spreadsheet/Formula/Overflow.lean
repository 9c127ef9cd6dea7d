/-
Where counts overflow. Cells are counted in words of 64 bits. The values of formulas are those of a
build in which such counts wrap round; a build that checks arithmetic stops the program instead, at
the first count that is no word. It does so where the functions of this module say: they go through
an evaluation in the order of its steps, past everything that has a value, and end at the first
fault. Ranges are read by their occupied cells, so the empty ones are counted by subtraction from
the number of all.
-/
import Spreadsheet.Formula.Eval

namespace Spreadsheet

/-- Whether the number of cells of a rectangle is no word. -/
def Range.countOverflows (r : Range) : Bool :=
  UInt64.size ≤ r.rowCount.toNat * r.colCount.toNat

/-- An argument of a call that has been read, or nothing if counting has stopped the program. -/
abbrev CheckedArgument := Option Argument

namespace Context

/-- Whether the count of empty cells overflows when those of one more argument are added. -/
def readingOverflows (ctx : Context) (zeros : UInt64) : Argument → Bool
  | .ok (.reference target) =>
    match ctx.readRange target.asRange with
    | .ok reading =>
      target.asRange.countOverflows || UInt64.size ≤ zeros.toNat + reading.empty.toNat
    | .error _ => false
  | .ok (.value _) | .error _ => false

/-- Whether counting the empty cells of the arguments of an aggregate overflows, some having been
counted before. -/
def collectOverflows (ctx : Context) (zeros : UInt64) : List CheckedArgument → Bool
  | [] => false
  | none :: _ => true
  | some argument :: rest =>
    ctx.readingOverflows zeros argument ||
      match ctx.argumentNumbers argument with
      | .ok numbers => ctx.collectOverflows (zeros + numbers.zeros) rest
      | .error _ => false

/-- Whether a count overflows when the arguments of a concatenation are read. -/
def textsOverflow (ctx : Context) : List CheckedArgument → Bool
  | [] => false
  | none :: _ => true
  | some argument :: rest =>
    ctx.readingOverflows 0 argument ||
      match ctx.argumentText argument with
      | .ok _ => ctx.textsOverflow rest
      | .error _ => false

/-- Whether a count overflows in a call. -/
def applyOverflows (ctx : Context) (f : Function) (arguments : List CheckedArgument) : Bool :=
  f.arity.accepts arguments.length &&
    match f with
    | .sum | .average | .max | .min => ctx.collectOverflows 0 arguments
    | .len => arguments.any Option.isNone
    | .concatenate => ctx.textsOverflow arguments

end Context

mutual

/-- Whether a count overflows when an expression is read, given what its names read as and whether a
count overflows there. -/
def Expr.overflows (ctx : Context) (named : String → Except Fault Operand)
    (namedOverflows : String → Bool) : Expr → Bool
  | .number _ | .text _ | .reference _ => false
  | .name n => namedOverflows n
  | .call f arguments => ctx.applyOverflows f (checkedOperands ctx named namedOverflows arguments)
  | .binary _ left right =>
    left.overflows ctx named namedOverflows ||
      match (left.operand ctx named).bind ctx.valueOf with
      | .ok _ => right.overflows ctx named namedOverflows
      | .error _ => false
  | .unary _ operand => operand.overflows ctx named namedOverflows

/-- What the arguments of a call read as, as far as no count overflows in them. -/
def checkedOperands (ctx : Context) (named : String → Except Fault Operand)
    (namedOverflows : String → Bool) : List Expr → List CheckedArgument
  | [] => []
  | e :: rest =>
    (if e.overflows ctx named namedOverflows then none else some (e.operand ctx named)) ::
      checkedOperands ctx named namedOverflows rest

end

namespace Context

/-- Whether a count overflows in a name, when names may still nest to a given depth. -/
def namedOverflows (ctx : Context) : Nat → String → Bool
  | 0, _ => false
  | depth + 1, n =>
    match ctx.definition n with
    | .ok body => body.overflows ctx (ctx.named depth) (ctx.namedOverflows depth)
    | .error _ => false

/-- Whether a count overflows in the evaluation of an expression. -/
def overflows (ctx : Context) (e : Expr) : Bool :=
  e.overflows ctx (ctx.named ctx.nesting) (ctx.namedOverflows ctx.nesting)

end Context

end Spreadsheet
