/-
Ranges read sparsely. Reading a range by its occupied cells, with the empty
ones counted by subtraction, gives what looking up every cell gives
(`Store.readOccupied_eq_readEveryCell`): the counted cells are those of the
range (`Range.cellCount_eq`). So it makes no difference to any expression
which of the two its context does (`Store.evaluate_eq_plain`).
-/
import Spreadsheet.Formula.Overflow
import Spreadsheet.Proofs.Locality

namespace Spreadsheet

/-! ## The number of cells -/

theorem length_wordsBetween (first last : UInt32) :
    (wordsBetween first last).length = last.toNat + 1 - first.toNat := by
  rw [wordsBetween, List.length_map, List.length_range']

namespace Range

theorem length_cells (r : Range) : r.cells.length =
    (r.lastRow.toNat + 1 - r.firstRow.toNat) * (r.lastCol.toNat + 1 - r.firstCol.toNat) := by
  simp [cells, List.length_flatMap, length_wordsBetween]

/-- One more than the distance of two words, as a word of twice the width. -/
theorem toNat_distance {first last : UInt32} (h : first ≤ last) :
    ((last - first).toUInt64 + 1).toNat = last.toNat + 1 - first.toNat := by
  have hle := UInt32.le_iff_toNat_le.1 h
  have hlt := last.toNat_lt
  rw [UInt64.toNat_add, UInt32.toNat_toUInt64, UInt32.toNat_sub_of_le _ _ h]
  simp only [UInt64.reduceToNat]
  omega

/-- **The count of a range is the number of its cells**, as a word. -/
theorem cellCount_eq (r : Range) : r.cellCount = UInt64.ofNat r.cells.length := by
  rw [length_cells, UInt64.ofNat_mul, ← toNat_distance r.rows_ordered,
    ← toNat_distance r.cols_ordered, UInt64.ofNat_toNat, UInt64.ofNat_toNat]
  rfl

theorem countOverflows_iff {r : Range} : r.countOverflows = true ↔ 2 ^ 64 ≤ r.cells.length := by
  rw [length_cells, ← toNat_distance r.rows_ordered, ← toNat_distance r.cols_ordered]
  exact decide_eq_true_iff

end Range

/-! ## Empty cells -/

theorem ofNat_countP_isEmpty (vs : List Value) : UInt64.ofNat (vs.countP Value.isEmpty) =
    UInt64.ofNat vs.length - UInt64.ofNat (vs.filter fun v => !v.isEmpty).length := by
  rw [List.length_eq_countP_add_countP Value.isEmpty, UInt64.ofNat_add,
    ← List.countP_eq_length_filter]
  simp

namespace Store

/-- **Reading a range by its occupied cells is reading it cell by cell.** -/
theorem readOccupied_eq_readEveryCell (s : Store) (r : Range) :
    s.readOccupied r = readEveryCell s.value r := by
  rw [readOccupied_eq, readEveryCell]
  cases hread : r.cells.mapM s.value with
  | error fault => rfl
  | ok vs =>
    have hcount : r.cellCount = UInt64.ofNat vs.length := by
      rw [r.cellCount_eq, length_of_mapM hread]
    simp only [Except.map, RangeReading.ofValues, hcount, ofNat_countP_isEmpty]

/-- **Reading ranges sparsely changes no value.** Over any store and with any names, an expression
evaluates to the same value or fault whether ranges are read by their occupied cells, the others
being counted by subtraction, or by looking up every cell of the rectangle. -/
theorem evaluate_eq_plain (s : Store) (names : NameTable) (policy : TextPolicy) (e : Expr) :
    (s.context names policy).evaluate e =
      (Context.plain s.value policy names.expression names.size).evaluate e := by
  have hover := s.context_over names policy
  have hplain := Context.plain_over s.value policy names
  refine hover.evaluate_congr (f := ⟨"", e⟩) hplain rfl (.refl _ _) fun t _ =>
    ⟨fun _ _ => rfl, ?_⟩
  exact s.readOccupied_eq_readEveryCell t.asRange

end Store

end Spreadsheet
