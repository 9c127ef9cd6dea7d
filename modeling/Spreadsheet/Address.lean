/-
Where cells are. A cell is found by its sheet, row and column, all counted from zero; a range is a
rectangle on one sheet, kept with its first corner at the upper left, so no rectangle is written
in two ways. Addresses are ordered by sheet, then row, then column: listing the cells of a range
row by row lists them in ascending order.
-/
import Std.Data.ExtTreeSet

namespace Spreadsheet

/-- The place of a cell. Rows and columns fill the whole 32-bit space. -/
structure CellAddress where
  sheet : Nat
  row : UInt32
  col : UInt32
deriving DecidableEq, Inhabited

namespace CellAddress

/-- Addresses compare by sheet, then by row, then by column. -/
instance : Ord CellAddress :=
  ⟨compareLex (compareOn sheet) (compareLex (compareOn row) (compareOn col))⟩

theorem compare_def (a b : CellAddress) :
    compare a b =
      (compare a.sheet b.sheet).then ((compare a.row b.row).then (compare a.col b.col)) := rfl

instance : Std.TransOrd CellAddress :=
  inferInstanceAs
    (Std.TransCmp (compareLex (compareOn sheet) (compareLex (compareOn row) (compareOn col))))

instance : Std.LawfulEqOrd CellAddress where
  eq_of_compare {a b} h := by
    simp only [compare_def, Ordering.then_eq_eq] at h
    obtain ⟨hs, hr, hc⟩ := h
    cases a; cases b
    simp_all [Std.LawfulEqCmp.compare_eq_iff_eq]

end CellAddress

/-- A finite set of cells. -/
abbrev CellSet := Std.ExtTreeSet CellAddress

/-- A rectangle of cells on one sheet, both corners included. -/
structure Range where
  sheet : Nat
  firstRow : UInt32
  firstCol : UInt32
  lastRow : UInt32
  lastCol : UInt32
  rows_ordered : firstRow ≤ lastRow
  cols_ordered : firstCol ≤ lastCol
deriving DecidableEq

namespace Range

/-- Rectangles compare by sheet, then by their first corners, then by their last ones. -/
instance : Ord Range :=
  ⟨compareLex (compareOn sheet) (compareLex (compareOn firstRow) (compareLex (compareOn firstCol)
    (compareLex (compareOn lastRow) (compareOn lastCol))))⟩

theorem compare_def (r q : Range) :
    compare r q = (compare r.sheet q.sheet).then ((compare r.firstRow q.firstRow).then
      ((compare r.firstCol q.firstCol).then ((compare r.lastRow q.lastRow).then
        (compare r.lastCol q.lastCol)))) := rfl

instance : Std.TransOrd Range :=
  inferInstanceAs (Std.TransCmp (compareLex (compareOn sheet) (compareLex (compareOn firstRow)
    (compareLex (compareOn firstCol) (compareLex (compareOn lastRow) (compareOn lastCol))))))

instance : Std.LawfulEqOrd Range where
  eq_of_compare {r q} h := by
    simp only [compare_def, Ordering.then_eq_eq] at h
    obtain ⟨hs, hfirstRow, hfirstCol, hlastRow, hlastCol⟩ := h
    cases r; cases q
    simp_all [Std.LawfulEqCmp.compare_eq_iff_eq]

end Range

/-- All words from the first to the last, in ascending order. -/
def wordsBetween (first last : UInt32) : List UInt32 :=
  (List.range' first.toNat (last.toNat + 1 - first.toNat)).map UInt32.ofNat

theorem mem_wordsBetween {first last w : UInt32} :
    w ∈ wordsBetween first last ↔ first ≤ w ∧ w ≤ last := by
  simp only [wordsBetween, List.mem_map, List.mem_range'_1, UInt32.le_iff_toNat_le]
  constructor
  · rintro ⟨n, hn, rfl⟩
    have hlt : n < UInt32.size := by have := last.toNat_lt; simp only [UInt32.size]; omega
    rw [UInt32.toNat_ofNat_of_lt' hlt]
    omega
  · rintro ⟨h1, h2⟩
    exact ⟨w.toNat, by omega, UInt32.ofNat_toNat⟩

namespace Range

/-- The rectangle two opposite corners span, given in any order as rows and columns. -/
def ofCorners (sheet : Nat) (rowA colA rowB colB : UInt32) : Range where
  sheet := sheet
  firstRow := if rowA ≤ rowB then rowA else rowB
  firstCol := if colA ≤ colB then colA else colB
  lastRow := if rowA ≤ rowB then rowB else rowA
  lastCol := if colA ≤ colB then colB else colA
  rows_ordered := by
    split
    · assumption
    · exact (UInt32.le_total rowA rowB).resolve_left ‹_›
  cols_ordered := by
    split
    · assumption
    · exact (UInt32.le_total colA colB).resolve_left ‹_›

/-- The rectangle of one cell. -/
def single (cell : CellAddress) : Range where
  sheet := cell.sheet
  firstRow := cell.row
  firstCol := cell.col
  lastRow := cell.row
  lastCol := cell.col
  rows_ordered := UInt32.le_refl _
  cols_ordered := UInt32.le_refl _

/-- Whether a cell lies in the rectangle. -/
def contains (r : Range) (cell : CellAddress) : Bool :=
  cell.sheet == r.sheet &&
    (decide (r.firstRow ≤ cell.row) && decide (cell.row ≤ r.lastRow)) &&
    (decide (r.firstCol ≤ cell.col) && decide (cell.col ≤ r.lastCol))

/-- The number of rows, between 1 and 2 ^ 32. -/
def rowCount (r : Range) : UInt64 :=
  (r.lastRow - r.firstRow).toUInt64 + 1

/-- The number of columns, between 1 and 2 ^ 32. -/
def colCount (r : Range) : UInt64 :=
  (r.lastCol - r.firstCol).toUInt64 + 1

/-- The number of cells as a word of 64 bits. Only for a whole sheet, which has 2 ^ 64 cells, is the
product no word (`Range.countOverflows`): it wraps round to zero. -/
def cellCount (r : Range) : UInt64 :=
  r.rowCount * r.colCount

/-- The cells, row by row. -/
def cells (r : Range) : List CellAddress :=
  (wordsBetween r.firstRow r.lastRow).flatMap fun row =>
    (wordsBetween r.firstCol r.lastCol).map fun col => ⟨r.sheet, row, col⟩

theorem contains_iff {r : Range} {cell : CellAddress} :
    r.contains cell = true ↔ cell.sheet = r.sheet ∧ (r.firstRow ≤ cell.row ∧ cell.row ≤ r.lastRow) ∧
      (r.firstCol ≤ cell.col ∧ cell.col ≤ r.lastCol) := by
  simp only [contains, Bool.and_eq_true, beq_iff_eq, decide_eq_true_eq, and_assoc]

theorem mem_cells {r : Range} {cell : CellAddress} : cell ∈ r.cells ↔ r.contains cell = true := by
  simp only [cells, List.mem_flatMap, List.mem_map, mem_wordsBetween, contains_iff]
  constructor
  · rintro ⟨row, hr, col, hc, rfl⟩
    exact ⟨rfl, hr, hc⟩
  · rintro ⟨hs, hr, hc⟩
    exact ⟨cell.row, hr, cell.col, hc, by rw [← hs]⟩

end Range

/-- What a formula can point at. A range of one cell is not the same reference as the cell. -/
inductive Reference where
  | cell (address : CellAddress)
  | range (range : Range)
deriving DecidableEq

namespace Reference

/-- The rectangle a reference covers. -/
def asRange : Reference → Range
  | cell address => .single address
  | range r => r

/-- The sheet a reference lies on. -/
def sheet : Reference → Nat
  | cell address => address.sheet
  | range r => r.sheet

end Reference

end Spreadsheet
