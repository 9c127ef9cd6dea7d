/-
Which cells are occupied after writes to cells and emptyings of cells, and
how those of a range are found. A change counts for its own cell
(`StoreChange.get?_apply`), so what was last done to a cell decides whether
it is occupied (`Store.get?_after_ne_none`). The occupied cells of a range
are looked for between its corners in the order of addresses; they are those
of its sheet that it contains (`Store.occupiedIn_eq_usedCells`), row by row.
-/
import Spreadsheet.Proofs.Occurrences
import Spreadsheet.Proofs.Reading
import Spreadsheet.Proofs.Search

namespace Spreadsheet

/-! ## Changes of a store -/

/-- A write to one cell, or the emptying of one. -/
inductive StoreChange where
  | set (cell : CellAddress) (content : CellContent)
  | erase (cell : CellAddress)

namespace StoreChange

/-- The cell that is written to or emptied. -/
def cell : StoreChange → CellAddress
  | set c _ => c
  | erase c => c

/-- What the cell is to hold. -/
def content? : StoreChange → Option CellContent
  | set _ content => some content
  | erase _ => none

/-- The store after a change. -/
def apply (s : Store) : StoreChange → Store
  | set c content => s.set c content
  | erase c => s.erase c

/-- What a change leaves in its cell: what the cell is to hold, as long as its sheet exists. -/
def leaves (s : Store) (change : StoreChange) : Option CellContent :=
  if s.hasSheet change.cell.sheet = true then change.content? else none

theorem sheets_apply (s : Store) (change : StoreChange) : (apply s change).sheets = s.sheets := by
  cases change with
  | set c content => exact s.sheets_set c content
  | erase c => exact s.sheets_erase c

theorem leaves_apply (s : Store) (change next : StoreChange) :
    leaves (apply s change) next = leaves s next := by
  rw [leaves, Store.hasSheet, sheets_apply]
  rfl

theorem get?_apply (s : Store) (change : StoreChange) (c : CellAddress) :
    (apply s change).get? c = if change.cell = c then leaves s change else s.get? c := by
  split
  · rename_i hc
    subst hc
    cases change with
    | erase c =>
      rw [leaves, content?, ite_self]
      exact s.get?_erase_self c
    | set c content =>
      unfold leaves
      split
      · exact Store.get?_set_self ‹_› content
      · rename_i hsheet
        rw [apply, Store.set_eq_self (Bool.not_eq_true _ ▸ hsheet)]
        by_contra hne
        obtain ⟨_, hget⟩ := Option.ne_none_iff_exists'.1 hne
        exact hsheet (Store.hasSheet_of_get? hget)
  · rename_i hc
    cases change with
    | set d content => exact s.get?_set_other hc content
    | erase d => exact s.get?_erase_other hc

end StoreChange

namespace Store

/-- The store after some changes, one after another. -/
def after (s : Store) (changes : List StoreChange) : Store :=
  changes.foldl StoreChange.apply s

/-- A cell is occupied after some changes if the last of them in this cell is a write, to a sheet
that exists, or if there is none and the cell was occupied before. -/
def OccupiedAfter (s : Store) (changes : List StoreChange) (c : CellAddress) : Prop :=
  (s.hasSheet c.sheet = true ∧ ∃ content, LastWith StoreChange.cell changes (.set c content)) ∨
    (∀ change ∈ changes, change.cell ≠ c) ∧ s.get? c ≠ none

/-- **A cell holds something if the last change of it left something there.** -/
theorem get?_after_ne_none {s : Store} {changes : List StoreChange} {c : CellAddress} :
    (s.after changes).get? c ≠ none ↔ s.OccupiedAfter changes c := by
  refine (view_foldl_iff get? StoreChange.get?_apply StoreChange.leaves_apply (· ≠ none)).trans
    (or_congr_left ?_)
  constructor
  · rintro ⟨change, hchange, rfl, hleaves⟩
    cases change with
    | erase c => exact absurd (ite_self none) hleaves
    | set c content => exact ⟨(ite_ne_right_iff.1 hleaves).1, content, hchange⟩
  · rintro ⟨hsheet, content, hchange⟩
    refine ⟨.set c content, hchange, rfl, ?_⟩
    exact ite_ne_right_iff.2 ⟨hsheet, Option.some_ne_none content⟩

theorem hasSheet_after (s : Store) (changes : List StoreChange) (sheet : Nat) :
    (s.after changes).hasSheet sheet = s.hasSheet sheet := by
  have hsheets : (s.after changes).sheets = s.sheets := by
    induction changes using List.reverseRecOn with
    | nil => rfl
    | append_singleton changes change ih =>
      rw [after, List.foldl_concat, StoreChange.sheets_apply]
      exact ih
  rw [hasSheet, hsheets, hasSheet]

/-! ## Occupied cells -/

theorem lists_usedCells (s : Store) (sheet : Nat) :
    Lists (s.usedCells sheet) fun c => s.get? c ≠ none ∧ c.sheet = sheet where
  ascending := Std.ExtTreeMap.ordered_keys.filter _
  mem_iff c := by
    rw [usedCells, List.mem_filter, Std.ExtTreeMap.mem_keys,
      Std.ExtTreeMap.mem_iff_isSome_getElem?, Option.isSome_iff_ne_none, beq_iff_eq, get?]

/-- **The occupied cells of a range** are those of its sheet that it contains, in the same order. -/
theorem occupiedIn_eq_usedCells (s : Store) (r : Range) :
    s.occupiedIn r = (s.usedCells r.sheet).filter r.contains := by
  rw [occupiedIn_eq, usedCells, List.filter_filter]
  refine List.filter_congr fun c _ => ?_
  rw [Bool.eq_iff_iff, Bool.and_eq_true, beq_iff_eq]
  exact ⟨fun h => ⟨h, (Range.contains_iff.1 h).1⟩, And.left⟩

theorem occupiedIn_row_by_row (s : Store) (r : Range) : (s.occupiedIn r).Pairwise fun a b =>
    a.row < b.row ∨ a.row = b.row ∧ a.col < b.col := by
  have hascending : (s.occupiedIn r).Pairwise fun a b => compare a b = .lt := by
    rw [occupiedIn_eq_usedCells]
    exact (s.lists_usedCells r.sheet).ascending.filter _
  have hsheet : ∀ c ∈ s.occupiedIn r, c.sheet = r.sheet := fun c hc =>
    (Range.contains_iff.1 (mem_occupiedIn.1 hc).1).1
  refine hascending.imp_of_mem fun {a b} ha hb hab => ?_
  rw [CellAddress.compare_eq_lt, hsheet a ha, hsheet b hb] at hab
  exact (hab.resolve_left (Nat.lt_irrefl _)).2

theorem occupiedIn_eq_nil {s : Store} {r : Range} (h : s.hasSheet r.sheet = false) :
    s.occupiedIn r = [] := by
  refine List.eq_nil_iff_forall_not_mem.2 fun c hc => ?_
  obtain ⟨hin, hget⟩ := mem_occupiedIn.1 hc
  obtain ⟨content, hcontent⟩ := Option.ne_none_iff_exists'.1 hget
  have hsheet := hasSheet_of_get? hcontent
  rw [(Range.contains_iff.1 hin).1, h] at hsheet
  cases hsheet

/-- **The occupied cells of a range are listed exactly.** Take any store, any writes to its cells and
emptyings of them, one after another, and any range. The cells listed for the range are the cells
that it contains and that are occupied now, each of them once, row by row and in each row from left
to right. They are the occupied cells of its sheet, which are listed in ascending order, without
those that the range does not contain; and on a sheet that does not exist there are none. -/
theorem occupied_cells_of_range (s : Store) (changes : List StoreChange) (r : Range) :
    let t := s.after changes
    (∀ c, c ∈ t.occupiedIn r ↔ s.OccupiedAfter changes c ∧ r.contains c = true) ∧
    (t.occupiedIn r).Nodup ∧
    (t.occupiedIn r).Pairwise (fun a b => a.row < b.row ∨ a.row = b.row ∧ a.col < b.col) ∧
    (∀ sheet, Lists (t.usedCells sheet) fun c => s.OccupiedAfter changes c ∧ c.sheet = sheet) ∧
    t.occupiedIn r = (t.usedCells r.sheet).filter r.contains ∧
    (s.hasSheet r.sheet = false → t.occupiedIn r = []) := by
  intro t
  have hrows := t.occupiedIn_row_by_row r
  simp only [← get?_after_ne_none]
  refine ⟨fun c => mem_occupiedIn.trans and_comm, hrows.imp ?_, hrows, t.lists_usedCells,
    t.occupiedIn_eq_usedCells r, fun h => occupiedIn_eq_nil ?_⟩
  · rintro a _ (h | ⟨-, h⟩) rfl
    · exact UInt32.lt_irrefl _ h
    · exact UInt32.lt_irrefl _ h
  · rw [hasSheet_after, h]

/-- A range down to the last cell of a sheet: cells before its first column and in its first row, a
cell that is emptied and written again, one that is only emptied, and writes to another sheet and to
one that does not exist. -/
theorem occupied_cells_of_range_corner :
    let s := (Store.empty.addSheet "S").addSheet "T"
    let last : UInt32 := 4294967295
    let changes : List StoreChange := [.set ⟨0, last, 2⟩ (.number 1),
      .set ⟨0, last, last⟩ (.text "a"), .set ⟨0, 3, 1⟩ (.boolean true), .set ⟨0, 4, 0⟩ (.number 2),
      .set ⟨0, 4, last⟩ (.text "b"), .set ⟨1, 4, 2⟩ (.number 3), .erase ⟨0, 4, last⟩,
      .set ⟨0, 3, 2⟩ (.number 4), .set ⟨2, 3, 2⟩ (.number 5), .set ⟨0, 5, 5⟩ (.text "c"),
      .set ⟨0, 4, last⟩ (.number 6), .erase ⟨0, 5, 5⟩]
    let t := s.after changes
    let r := Range.ofCorners 0 last 2 3 last
    let q := Range.ofCorners 2 0 0 last last
    (t.occupiedIn r = [⟨0, 3, 2⟩, ⟨0, 4, last⟩, ⟨0, last, 2⟩, ⟨0, last, last⟩] ∧
        s.hasSheet q.sheet = false) ∧
      s.OccupiedAfter changes ⟨0, 4, last⟩ ∧ ¬ s.OccupiedAfter changes ⟨0, 5, 5⟩ ∧
      t.occupiedIn q = [] := by
  intro s last changes t r q
  refine (fun facts => ⟨facts, ?_⟩) (by decide)
  obtain ⟨hlisted, hsheet⟩ := facts
  obtain ⟨hmem, -⟩ := occupied_cells_of_range s changes r
  obtain ⟨-, -, -, -, -, hnone⟩ := occupied_cells_of_range s changes q
  refine ⟨((hmem _).1 (by rw [hlisted]; simp)).1, fun h => ?_, hnone hsheet⟩
  have hcell : (⟨0, 5, 5⟩ : CellAddress) ∈ t.occupiedIn r := (hmem _).2 ⟨h, by decide⟩
  rw [hlisted] at hcell
  revert hcell
  decide

end Store

end Spreadsheet
