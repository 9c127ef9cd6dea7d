/-
What is watched after rectangles have been set and cleared, from both sides.
A change replaces the rectangles of its cell and leaves those of the others
as they are (`WatchChange.ranges_apply`), so a cell watches what its last
change set (`RangeWatch.ranges_ofChanges`). The cells that watch a rectangle
around a cell are found by the rectangles, and the cells of a set that a cell
watches by the rows of its rectangles (`RangeWatch.mem_watchedAmong`); both
ask which rectangles contain which cells, and so they agree.
-/
import Spreadsheet.Proofs.Occurrences
import Spreadsheet.Proofs.Reading
import Spreadsheet.Proofs.Search
import Spreadsheet.RangeWatch

namespace Spreadsheet

/-! ## The cells of a set inside a rectangle -/

/-- The first column and the last one bound no cell: what lies between their cells is in the rows of
the rectangle. -/
theorem Range.mem_rowsAmong {r : Range} {cells : CellSet} {c : CellAddress} :
    c ∈ r.rowsAmong cells ↔
      c ∈ cells ∧ c.sheet = r.sheet ∧ r.firstRow ≤ c.row ∧ c.row ≤ r.lastRow := by
  rw [rowsAmong, window_eq_filter Std.ExtTreeSet.ordered_toList, List.mem_filter,
    Std.ExtTreeSet.mem_toList]
  refine and_congr_right fun _ => ?_
  have hcol := c.col.toNat_lt
  rw [Bool.and_eq_true, bne_iff_ne, bne_iff_ne, ne_eq, ne_eq, Std.OrientedCmp.gt_iff_lt,
    CellAddress.compare_eq_lt, CellAddress.compare_eq_lt]
  simp only [UInt32.lt_iff_toNat_lt, UInt32.le_iff_toNat_le, ← UInt32.toNat_inj,
    UInt32.reduceToNat]
  omega

namespace RangeWatch

theorem mem_watchedAmong {w : RangeWatch} {watcher c : CellAddress} {cells : CellSet} :
    c ∈ w.watchedAmong watcher cells ↔
      c ∈ cells ∧ ∃ r ∈ w.ranges watcher, r.contains c = true := by
  simp only [watchedAmong, Std.ExtTreeSet.mem_toList, mem_set_ofList, List.mem_flatMap,
    List.mem_filter, Range.mem_rowsAmong]
  constructor
  · rintro ⟨r, hr, ⟨hc, -⟩, hin⟩
    exact ⟨hc, r, hr, hin⟩
  · rintro ⟨hc, r, hr, hin⟩
    obtain ⟨hsheet, hrows, -⟩ := Range.contains_iff.1 hin
    exact ⟨r, hr, ⟨hc, hsheet, hrows⟩, hin⟩

theorem isEmpty_iff {w : RangeWatch} : w.isEmpty = true ↔ ∀ c, w.ranges c = [] := by
  rw [isEmpty, Std.ExtTreeMap.isEmpty_iff, Std.ExtTreeMap.eq_empty_iff_forall_not_mem]
  exact forall_congr' fun c => (not_congr mem_byWatcher).trans not_not

end RangeWatch

/-! ## After any changes -/

/-- A change of what one cell watches. -/
inductive WatchChange where
  | set (watcher : CellAddress) (ranges : List Range)
  | clear (watcher : CellAddress)

namespace WatchChange

/-- The cell that watches other rectangles from now on. -/
def watcher : WatchChange → CellAddress
  | set c _ => c
  | clear c => c

/-- The rectangles that the cell is to watch. -/
def ranges : WatchChange → List Range
  | set _ l => l
  | clear _ => []

/-- What is watched after a change. -/
def apply (w : RangeWatch) : WatchChange → RangeWatch
  | set c l => w.set c l
  | clear c => w.clear c

theorem ranges_apply (w : RangeWatch) (change : WatchChange) (c : CellAddress) :
    (apply w change).ranges c = if change.watcher = c then change.ranges else w.ranges c := by
  split
  · rename_i hc
    subst hc
    cases change with
    | set c l => exact w.ranges_set_self c l
    | clear c => exact w.ranges_clear_self c
  · rename_i hc
    cases change with
    | set d l => exact w.ranges_set_other hc l
    | clear d => exact w.ranges_clear_other hc

end WatchChange

namespace RangeWatch

/-- What is watched after some changes, one after another, where nothing was watched before. -/
def ofChanges (changes : List WatchChange) : RangeWatch :=
  changes.foldl WatchChange.apply empty

/-- **A cell watches what its last change set**, and nothing without a change. -/
theorem ranges_ofChanges (changes : List WatchChange) :
    (∀ change, LastWith WatchChange.watcher changes change →
      (ofChanges changes).ranges change.watcher = change.ranges) ∧
    ∀ c, (∀ change ∈ changes, change.watcher ≠ c) → (ofChanges changes).ranges c = [] := by
  have hseen : ∀ {c l}, (ofChanges changes).ranges c = l ↔
      (∃ change, LastWith WatchChange.watcher changes change ∧ change.watcher = c ∧
        change.ranges = l) ∨ (∀ change ∈ changes, change.watcher ≠ c) ∧ empty.ranges c = l :=
    fun {_ l} => view_foldl_iff ranges WatchChange.ranges_apply (fun _ _ _ => rfl) (· = l)
  exact ⟨fun change hchange => hseen.2 (.inl ⟨change, hchange, rfl, rfl⟩),
    fun c hc => hseen.2 (.inr ⟨hc, ranges_empty c⟩)⟩

/-- **The two directions of watching agree.** After any changes, a cell watches the rectangles that
its last change set, as they were listed, and none if they were cleared or never set. The watchers
of a cell are, in ascending order, the cells that watch a rectangle around it. What a cell watches
among a set is, in ascending order, the cells of the set that have it among their watchers. And
nothing is watched if and only if no cell has a rectangle. -/
theorem watching_agrees_both_ways (changes : List WatchChange) :
    let w := ofChanges changes
    ((∀ change, LastWith WatchChange.watcher changes change →
        w.ranges change.watcher = change.ranges) ∧
      ∀ c, (∀ change ∈ changes, change.watcher ≠ c) → w.ranges c = []) ∧
    (∀ c, Lists (w.watchers c) fun watcher => ∃ r ∈ w.ranges watcher, r.contains c = true) ∧
    (∀ watcher cells, Lists (w.watchedAmong watcher cells) fun c =>
      c ∈ cells ∧ watcher ∈ w.watchers c) ∧
    (w.isEmpty = true ↔ ∀ c, w.ranges c = []) := by
  intro w
  refine ⟨ranges_ofChanges changes, fun c => ?_, fun watcher cells => ?_, isEmpty_iff⟩
  · exact ⟨Std.ExtTreeSet.ordered_toList, fun _ => mem_watchers⟩
  · refine ⟨Std.ExtTreeSet.ordered_toList, fun c => ?_⟩
    rw [mem_watchedAmong, mem_watchers]

/-- Rectangles listed twice, shared and replaced, and a cell that is cleared: the rectangle that
only cleared cells have watched is gone. -/
theorem watching_agrees_both_ways_shared :
    let column := Range.ofCorners 0 0 0 9999 0
    let row := Range.ofCorners 0 2 0 2 9999
    let changes : List WatchChange := [.set ⟨0, 0, 5⟩ [row], .set ⟨0, 1, 5⟩ [column, row, column],
      .set ⟨1, 0, 0⟩ [column], .set ⟨0, 0, 5⟩ [column], .clear ⟨1, 0, 0⟩]
    let w := ofChanges changes
    let cells : List CellAddress := [⟨0, 2, 7⟩, ⟨0, 1, 0⟩, ⟨0, 1, 1⟩, ⟨1, 1, 0⟩]
    (w.watchers ⟨0, 2, 0⟩ = [⟨0, 0, 5⟩, ⟨0, 1, 5⟩] ∧
        w.watchedAmong ⟨0, 1, 5⟩ (.ofList cells) = [⟨0, 1, 0⟩, ⟨0, 2, 7⟩] ∧ w.isEmpty = false) ∧
      w.ranges ⟨0, 1, 5⟩ = [column, row, column] ∧ w.ranges ⟨1, 0, 0⟩ = [] ∧
      w.ranges ⟨0, 9, 9⟩ = [] ∧ (∃ r ∈ w.ranges ⟨0, 1, 5⟩, r.contains ⟨0, 2, 0⟩ = true) ∧
      ⟨0, 1, 5⟩ ∈ w.watchers ⟨0, 2, 7⟩ ∧ ¬ ∀ c, w.ranges c = [] := by
  intro column row changes w cells
  refine (fun facts => ⟨facts, ?_⟩) (by cbv)
  obtain ⟨hwatchers, hamong, hempty⟩ := facts
  obtain ⟨⟨hlast, hnone⟩, hup, hdown, hall⟩ := watching_agrees_both_ways changes
  refine ⟨hlast _ ⟨[_], [_, _, _], rfl, by decide⟩, hlast _ ⟨[_, _, _, _], [], rfl, by simp⟩,
    hnone _ (by decide), ?_, ?_, fun h => ?_⟩
  · exact ((hup _).mem_iff _).1 (by rw [hwatchers]; simp)
  · exact (((hdown _ (.ofList cells)).mem_iff _).1 (by rw [hamong]; simp)).2
  · exact Bool.false_ne_true (hempty.symm.trans (hall.2 h))

end RangeWatch

end Spreadsheet
