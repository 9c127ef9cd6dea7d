/-
What a formula depends on. A reference to few cells is spread out into its cells, a reference to
many is kept as a rectangle. Together the two lists cover exactly the cells of the references, and
each lists what it holds once, in order of first appearance.
-/
import Spreadsheet.Address

namespace Spreadsheet

/-- The most cells a reference may have to be spread out. -/
def expansionLimit : UInt64 := 4096

/-- The elements of a list that are not in a set, each at its first occurrence. -/
def distinctBeyond {α} [Ord α] [Std.TransOrd α] (seen : Std.ExtTreeSet α) : List α → List α
  | [] => []
  | a :: rest =>
    if seen.contains a then distinctBeyond seen rest
    else a :: distinctBeyond (seen.insert a) rest

/-- Single cells and whole rectangles that a formula depends on. -/
structure Dependencies where
  cells : List CellAddress
  ranges : List Range
deriving DecidableEq

namespace Dependencies

/-- Depending on nothing. -/
def none : Dependencies := ⟨[], []⟩

/-- Whether a rectangle is kept whole. -/
def isLarge (r : Range) : Bool :=
  decide (expansionLimit < r.cellCount)

/-- The dependencies that references make. -/
def ofReferences (references : List Reference) : Dependencies :=
  let rectangles := references.map Reference.asRange
  { cells := distinctBeyond ∅ ((rectangles.filter fun r => !isLarge r).flatMap Range.cells)
    ranges := (rectangles.filter isLarge).eraseDups }

end Dependencies

end Spreadsheet
