/-
The shortest decimal of a number. All reals between the midpoints to a number's two neighbours
read back as that number, the midpoints themselves too if its mantissa is even. For one digit, two
digits and so on, the number's two neighbours on the decimal grid of that many digits are tried;
the first grid with a neighbour in that interval gives the shortest decimal, and of two neighbours
the nearer one is taken. Two that are equally near are the format's choice.
-/
import Spreadsheet.Decimal.Literal

namespace Spreadsheet

namespace Binary64

/-- The interval of a number that reads back, in quarters of its last bit: the lower end, the
number itself and the upper end. Below a power of two the neighbours lie half as far apart. -/
def interval (x : Binary64) : Nat × Nat × Nat :=
  let quarters := 4 * x.mantissa
  let below := if x.mantissa = Nat.pow 2 mantissaBits ∧ minExponent < x.exponent then 1 else 2
  (quarters - below, quarters, quarters + 2)

/-- The decimal on the grid of multiples of `10 ^ k` next to a positive number that reads back as
it, if there is one. -/
def gridDecimal (x : Binary64) (tie : Tie) (k : Int) : Option Decimal :=
  let (low, value, high) := x.interval
  let e := x.exponent - 2
  let unit := Nat.pow 2 e.toNat * Nat.pow 10 (-k).toNat
  let grid := Nat.pow 10 k.toNat * Nat.pow 2 (-e).toNat
  let below := value * unit / grid
  let closed := x.mantissa % 2 = 0
  let inside (c : Nat) : Bool :=
    if closed then low * unit ≤ c * grid ∧ c * grid ≤ high * unit
    else low * unit < c * grid ∧ c * grid < high * unit
  match inside below, inside (below + 1) with
  | true, true => some ⟨roundDiv (value * unit) grid tie, k⟩
  | true, false => some ⟨below, k⟩
  | false, true => some ⟨below + 1, k⟩
  | false, false => none

/-- The power of ten just above a positive number: ten to it has one digit more than the number. -/
def magnitude (x : Binary64) : Int :=
  let scaled := scale (x.mantissa * Nat.pow 10 Decimal.exponentLimit) 1 x.exponent
  (decimalDigits (scaled.1 / scaled.2)).length - Decimal.exponentLimit

/-- The most digits a number needs to read back. -/
def maxDigits : Nat := 17

/-- The shortest decimal that reads back as a positive number. -/
def shortest (x : Binary64) (tie : Tie) : Decimal :=
  let top := x.magnitude
  ((List.range' 1 maxDigits).findSome? fun n : Nat => x.gridDecimal tie (top - n)).getD ⟨0, top⟩

end Binary64

end Spreadsheet
