/-
Expressions without names. Each name that has an expression is replaced by it, and so are the names
in that expression; circular names and names without a definition stay. Names nest no deeper than
there are definitions, so that many rounds reach the end.
-/
import Spreadsheet.NameTable

namespace Spreadsheet

namespace NameTable

/-- What stands for a name after a number of rounds of replacing. -/
def expandName (t : NameTable) : Nat → String → Expr
  | 0, n => .name n
  | rounds + 1, n =>
    match t.expression n with
    | .ok body => body.substitute (t.expandName rounds)
    | .error _ => .name n

/-- An expression with what names stand for in place of them. -/
def expand (t : NameTable) (e : Expr) : Expr :=
  e.substitute (t.expandName t.size)

end NameTable

end Spreadsheet
