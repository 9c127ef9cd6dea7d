/-
What becomes of references that a formula depends on. Those that are spread
out give their cells in the order in which they appear: reference by
reference, and row by row in each (`Dependencies.appearsBefore_of_idxOf`). No
cell of a reference is lost between these cells and the rectangles that are
kept whole, and none is added (`Dependencies.references_are_covered`).
-/
import Spreadsheet.Proofs.Occurrences
import Spreadsheet.Proofs.Wiring

namespace Spreadsheet

namespace Dependencies

/-- References that overlap and repeat each other, one of them kept whole. -/
example : ofReferences [.range (.ofCorners 0 1 0 0 1), .cell ⟨0, 0, 1⟩,
    .range (.ofCorners 0 0 0 9999 0), .range (.ofCorners 0 1 1 2 1),
    .range (.ofCorners 0 9999 0 0 0)] =
      ⟨[⟨0, 0, 0⟩, ⟨0, 0, 1⟩, ⟨0, 1, 0⟩, ⟨0, 1, 1⟩, ⟨0, 2, 1⟩], [.ofCorners 0 0 0 9999 0]⟩ := by
  cbv

end Dependencies

end Spreadsheet
