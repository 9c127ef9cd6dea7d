/-
The functions a formula can call, and how many arguments each takes. Function names are matched
without regard to the case of their ASCII letters.
-/

namespace Spreadsheet

/-- How many arguments a function takes. -/
inductive Arity where
  | exactly (count : Nat)
  | atLeast (count : Nat)
deriving DecidableEq

/-- Whether a call with this many arguments is allowed. -/
def Arity.accepts : Arity → Nat → Bool
  | exactly n, count => count == n
  | atLeast n, count => decide (n ≤ count)

/-- The functions of the formula language. -/
inductive Function where
  | sum
  | average
  | max
  | min
  | len
  | concatenate
deriving DecidableEq, Inhabited

namespace Function

/-- All functions. -/
def all : List Function := [sum, average, max, min, len, concatenate]

/-- The name of a function in capitals. -/
def name : Function → String
  | sum => "SUM"
  | average => "AVERAGE"
  | max => "MAX"
  | min => "MIN"
  | len => "LEN"
  | concatenate => "CONCATENATE"

/-- The function with a name, in any case. -/
def ofName? (name : String) : Option Function :=
  all.find? fun f => f.name.toList == name.toList.map Char.toUpper

/-- `LEN` measures one text; every other function takes any positive number of arguments. -/
def arity : Function → Arity
  | len => .exactly 1
  | _ => .atLeast 1

/-- Whether a function reduces the numbers of its arguments to one. -/
def isAggregate : Function → Bool
  | sum | average | max | min => true
  | len | concatenate => false

end Function

end Spreadsheet
