/-
How many cells a rectangle has and what its count says. The corners of a
rectangle can be any two cells of the grid, and its count is exact unless it
has every cell of its sheet: then the number of cells is 2 ^ 64 and the count
is zero (`Range.toNat_cellCount_eq_iff`). A whole sheet therefore counts as
small and is spread out into its cells (`Dependencies.mem_cells_ofReferences`);
where arithmetic is checked, no formula that refers to one can be tied to what
it depends on (`Workbook.tieOverflows_iff`).
-/
import Spreadsheet.Proofs.Printing
import Spreadsheet.Proofs.Sparse
import Spreadsheet.Workbook.Checked

namespace Spreadsheet

/-! ## Whole sheets -/

theorem span_le (first last : UInt32) : last.toNat + 1 - first.toNat ≤ 2 ^ 32 := by
  have := last.toNat_lt
  omega

theorem eq_of_mul_eq {a b n : Nat} (ha : a ≤ n) (hb : b ≤ n) (hn : 0 < n) (h : a * b = n * n) :
    a = n ∧ b = n := by
  have hle : n * n ≤ a * n := h ▸ Nat.mul_le_mul_left a hb
  have ha : a = n := Nat.le_antisymm ha (Nat.le_of_mul_le_mul_right hle hn)
  exact ⟨ha, Nat.eq_of_mul_eq_mul_left hn (ha ▸ h)⟩

namespace Range

/-- Whether a rectangle has every cell of its sheet. -/
def IsWhole (r : Range) : Prop := ∀ row col, r.contains ⟨r.sheet, row, col⟩ = true

theorem length_cells_le (r : Range) : r.cells.length ≤ 2 ^ 64 := by
  have h := Nat.mul_le_mul (span_le r.firstRow r.lastRow) (span_le r.firstCol r.lastCol)
  rwa [← length_cells, ← Nat.pow_add] at h

theorem length_cells_pos (r : Range) : 0 < r.cells.length := by
  have hrows := UInt32.le_iff_toNat_le.1 r.rows_ordered
  have hcols := UInt32.le_iff_toNat_le.1 r.cols_ordered
  rw [length_cells]
  exact Nat.mul_pos (by omega) (by omega)

theorem isWhole_iff_corners {r : Range} : r.IsWhole ↔
    (r.firstRow.toNat = 0 ∧ r.lastRow.toNat + 1 = 2 ^ 32) ∧
      r.firstCol.toNat = 0 ∧ r.lastCol.toNat + 1 = 2 ^ 32 := by
  have hlastRow := r.lastRow.toNat_lt
  have hlastCol := r.lastCol.toNat_lt
  constructor
  · intro h
    obtain ⟨-, ⟨hrow, -⟩, hcol, -⟩ := contains_iff.1 (h 0 0)
    obtain ⟨-, ⟨-, hrow'⟩, -, hcol'⟩ := contains_iff.1 (h 4294967295 4294967295)
    simp only [UInt32.le_iff_toNat_le, UInt32.reduceToNat] at hrow hcol hrow' hcol'
    omega
  · intro h row col
    have hrow := row.toNat_lt
    have hcol := col.toNat_lt
    simp only [contains_iff, UInt32.le_iff_toNat_le, true_and]
    omega

theorem isWhole_iff {r : Range} : r.IsWhole ↔ r.cells.length = 2 ^ 64 := by
  rw [isWhole_iff_corners, length_cells]
  constructor
  · rintro ⟨⟨hrow, hrow'⟩, hcol, hcol'⟩
    rw [hrow, hrow', hcol, hcol', Nat.sub_zero, ← Nat.pow_add]
  · intro h
    have hspans := eq_of_mul_eq (span_le r.firstRow r.lastRow) (span_le r.firstCol r.lastCol)
      (by decide) h
    have hlastRow := r.lastRow.toNat_lt
    have hlastCol := r.lastCol.toNat_lt
    omega

/-! ## Counts -/

theorem toNat_cellCount (r : Range) : r.cellCount.toNat = r.cells.length % 2 ^ 64 := by
  rw [cellCount_eq, UInt64.toNat_ofNat']

theorem toNat_cellCount_of_not_isWhole {r : Range} (h : ¬ r.IsWhole) :
    r.cellCount.toNat = r.cells.length := by
  have := r.length_cells_le
  rw [isWhole_iff] at h
  rw [toNat_cellCount, Nat.mod_eq_of_lt (by omega)]

theorem toNat_cellCount_of_isWhole {r : Range} (h : r.IsWhole) : r.cellCount.toNat = 0 := by
  rw [toNat_cellCount, isWhole_iff.1 h, Nat.mod_self]

/-- **A count is exact unless the rectangle is a whole sheet.** -/
theorem toNat_cellCount_eq_iff {r : Range} : r.cellCount.toNat = r.cells.length ↔ ¬ r.IsWhole := by
  refine ⟨fun h hwhole => ?_, toNat_cellCount_of_not_isWhole⟩
  have := r.length_cells_pos
  rw [toNat_cellCount_of_isWhole hwhole] at h
  omega

theorem countOverflows_iff_isWhole {r : Range} : r.countOverflows = true ↔ r.IsWhole := by
  rw [countOverflows_iff, isWhole_iff]
  exact ⟨Nat.le_antisymm r.length_cells_le, Eq.ge⟩

end Range

/-- **Only references to whole sheets are too large to be counted**, those of names included. -/
theorem Workbook.tieOverflows_iff {names : NameTable} {f : Formula} :
    tieOverflows names f = true ↔
      ∃ target ∈ f.references ++ names.references f.names, target.asRange.IsWhole := by
  simp only [tieOverflows, List.any_eq_true, Range.countOverflows_iff_isWhole]

/-! ## Dependencies -/

namespace Dependencies

theorem isLarge_iff {r : Range} : isLarge r = true ↔ 4096 < r.cells.length ∧ ¬ r.IsWhole := by
  have hlimit : isLarge r = true ↔ 4096 < r.cellCount.toNat := by
    rw [isLarge, decide_eq_true_iff, UInt64.lt_iff_toNat_lt]
    rfl
  rw [hlimit]
  by_cases h : r.IsWhole
  · rw [Range.toNat_cellCount_of_isWhole h]
    exact iff_of_false (by decide) fun hn => hn.2 h
  · rw [Range.toNat_cellCount_of_not_isWhole h]
    exact (and_iff_left h).symm

/-- **The cells that a reference is spread out into** are those of a rectangle with few cells, or of a
whole sheet. -/
theorem mem_cells_ofReferences {references : List Reference} {c : CellAddress} :
    c ∈ (ofReferences references).cells ↔ ∃ target ∈ references,
      target.asRange.contains c = true ∧
        (target.asRange.cells.length ≤ 4096 ∨ target.asRange.IsWhole) := by
  have hsmall : ∀ r, (!isLarge r) = true ↔ r.cells.length ≤ 4096 ∨ r.IsWhole := fun r => by
    rw [Bool.not_eq_true', ← Bool.not_eq_true, isLarge_iff, not_and_or, not_not, Nat.not_lt]
  simp only [ofReferences, mem_distinctBeyond, List.mem_flatMap, List.mem_filter, List.mem_map,
    Range.mem_cells, hsmall]
  constructor
  · rintro ⟨r, ⟨⟨target, ht, rfl⟩, hr⟩, hc⟩
    exact ⟨target, ht, hc, hr⟩
  · rintro ⟨target, ht, hc, hr⟩
    exact ⟨_, ⟨⟨target, ht, rfl⟩, hr⟩, hc⟩

theorem mem_ranges_ofReferences {references : List Reference} {r : Range} :
    r ∈ (ofReferences references).ranges ↔ (∃ target ∈ references, target.asRange = r) ∧
      4096 < r.cells.length ∧ ¬ r.IsWhole := by
  simp only [ofReferences, List.mem_eraseDups, List.mem_filter, List.mem_map, isLarge_iff]

end Dependencies

/-! ## Readings -/

theorem Store.length_values_le {s : Store} {r : Range} {reading : RangeReading}
    (h : s.readOccupied r = .ok reading) : reading.values.length ≤ r.cells.length := by
  rw [readOccupied_eq_readEveryCell] at h
  obtain ⟨vs, hread, rfl⟩ := map_eq_ok.1 h
  rw [← length_of_mapM hread]
  exact List.length_filter_le _ vs

/-! ## Rectangles in formulas -/

/-- Any two corners are read as their rectangle. -/
theorem parse_corners (sheet : Nat) (rowA colA rowB colB : UInt32)
    (sheetNamed : String → Option Nat) :
    let text := "=" ++ (positionLabel rowA colA ++ ":" ++ positionLabel rowB colB)
    Formula.parse text sheet sheetNamed =
      .ok ⟨text, .reference (.range (.ofCorners sheet rowA colA rowB colB))⟩ := by
  let tokens : List Token :=
    [.identifier (positionLabel rowA colA), .colon, .identifier (positionLabel rowB colB)]
  have hderives : ∀ position, Derives ⟨sheet, sheetNamed, position⟩ .comparison tokens
      (.reference (.range (.ofCorners sheet rowA colA rowB colB))) := fun _ =>
    (Derives.reference (.range (.bare (parseLabel_positionLabel rowA colA))
      (.bare (parseLabel_positionLabel rowB colB)) rfl)).loosen (Nat.zero_le _)
  have hwritten : ∀ t ∈ tokens, t.WrittenAs (t.written fun _ => []) := fun t ht => by
    simp only [tokens, List.mem_cons, List.not_mem_nil, or_false] at ht
    rcases ht with rfl | rfl | rfl
    · exact Token.writtenAs_identifier (isIdentifier_label ⟨sheet, rowA, colA⟩)
    · exact .colon
    · exact Token.writtenAs_identifier (isIdentifier_label ⟨sheet, rowB, colB⟩)
  have htext : String.ofList (tokens.flatMap (Token.written fun _ => [])) =
      positionLabel rowA colA ++ ":" ++ positionLabel rowB colB :=
    String.toList_injective (by simp [tokens, Token.written])
  have h := (parse_written hderives hwritten).2
  rwa [htext] at h

namespace Range

/-- **How far the count of a rectangle can be trusted.** Any two cells of the grid are the corners of
a rectangle that a formula can refer to, on any sheet. The count of the rectangle is the number of
its cells exactly if it is not the whole sheet. So of references with more cells than the limit only
whole sheets are spread out into their cells; and what is read of the rectangle over any store is no
more than the count, from which it is taken away, unless the rectangle is a whole sheet that is not
empty. Where arithmetic is checked, counting stops exactly at whole sheets, and so does tying a
formula to what it depends on. -/
theorem count_exact_unless_whole (sheet : Nat) (rowA colA rowB colB : UInt32)
    (sheetNamed : String → Option Nat) :
    let r := ofCorners sheet rowA colA rowB colB
    let text := "=" ++ (positionLabel rowA colA ++ ":" ++ positionLabel rowB colB)
    Formula.parse text sheet sheetNamed = .ok ⟨text, .reference (.range r)⟩ ∧
      (r.cellCount.toNat = r.cells.length ↔ ¬ r.IsWhole) ∧
      (∀ references, let d := Dependencies.ofReferences references
        (∀ c, c ∈ d.cells ↔ ∃ target ∈ references, target.asRange.contains c = true ∧
          (target.asRange.cells.length ≤ 4096 ∨ target.asRange.IsWhole)) ∧
        ∀ q, q ∈ d.ranges ↔ (∃ target ∈ references, target.asRange = q) ∧
          4096 < q.cells.length ∧ ¬ q.IsWhole) ∧
      (∀ s reading, Store.readOccupied s r = .ok reading →
        (reading.values.length ≤ r.cellCount.toNat ↔ (r.IsWhole → reading.values = []))) ∧
      (r.countOverflows = true ↔ r.IsWhole) ∧
      ∀ names f, Workbook.tieOverflows names f = true ↔
        ∃ target ∈ f.references ++ names.references f.names, target.asRange.IsWhole := by
  intro r text
  refine ⟨parse_corners sheet rowA colA rowB colB sheetNamed, toNat_cellCount_eq_iff,
    fun references => ⟨fun _ => Dependencies.mem_cells_ofReferences,
      fun _ => Dependencies.mem_ranges_ofReferences⟩, fun s reading h => ?_,
    countOverflows_iff_isWhole, fun _ _ => Workbook.tieOverflows_iff⟩
  by_cases hwhole : r.IsWhole
  · rw [toNat_cellCount_of_isWhole hwhole, Nat.le_zero, List.length_eq_zero_iff]
    exact ⟨fun hnil _ => hnil, fun hnil => hnil hwhole⟩
  · rw [toNat_cellCount_of_not_isWhole hwhole]
    exact ⟨fun _ hn => absurd hn hwhole, fun _ => Store.length_values_le h⟩

/-- Read from a whole sheet on which one cell is occupied, one value is more than the count. -/
theorem count_exact_unless_whole_text :
    let s := ((Workbook.empty .skip).run
      [.appendSheet "S", .setCell ⟨0, 2, 5⟩ (.text "a")]).store
    let r := ofCorners 0 0 0 4294967295 4294967295
    s.readOccupied r = .ok ⟨[.text "a"], 18446744073709551615⟩ ∧ ¬ 1 ≤ r.cellCount.toNat := by
  refine (fun hread => ⟨hread, fun h => ?_⟩) (by cbv)
  obtain ⟨-, -, -, hcount, -⟩ :=
    count_exact_unless_whole 0 0 0 4294967295 4294967295 fun _ => none
  exact List.cons_ne_nil _ _ ((hcount _ _ hread).1 h (isWhole_iff_corners.2 (by decide)))

/-- **The whole sheet is counted as nothing.** A formula that sums it is read, its range has 2 ^ 64
cells, the count is zero, and the range is spread out into every cell of the sheet. Where arithmetic
is checked, writing the formula into a cell stops. -/
theorem count_of_whole_sheet :
    let r := ofCorners 0 0 0 4294967295 4294967295
    let f : Formula := ⟨"=SUM(A1:MWLQKWV4294967296)", .call .sum [.reference (.range r)]⟩
    let d := Dependencies.ofReferences f.references
    Formula.parse "=SUM(A1:MWLQKWV4294967296)" 0 (fun _ => none) = .ok f ∧
      r.cells.length = 2 ^ 64 ∧ r.cellCount = 0 ∧
        d.ranges = [] ∧ (∀ row col, ⟨0, row, col⟩ ∈ d.cells) ∧ r.countOverflows = true ∧
        (Workbook.empty .skip).runChecked
          [.appendSheet "S", .setCell ⟨0, 0, 0⟩ (.formula f.source)] = none := by
  intro r f d
  have hwhole : r.IsWhole := isWhole_iff_corners.2 (by decide)
  refine ⟨by cbv, isWhole_iff.1 hwhole, by decide, ?_, fun row col => ?_,
    countOverflows_iff_isWhole.2 hwhole, by cbv⟩
  · refine List.eq_nil_iff_forall_not_mem.2 fun q hq => ?_
    obtain ⟨⟨target, ht, rfl⟩, -, hq⟩ := Dependencies.mem_ranges_ofReferences.1 hq
    obtain rfl := List.mem_singleton.1 ht
    exact hq hwhole
  · exact Dependencies.mem_cells_ofReferences.2
      ⟨.range r, List.mem_singleton_self _, hwhole row col, .inr hwhole⟩

end Range

end Spreadsheet
