/-
Who watches which rectangles. A formula that reads a large range is not tied to every cell of it;
the rectangle itself is recorded for it. `watchers` finds the formulas that a change of one cell
concerns, `watchedAmong` the cells of a set that one formula watches.
-/
import Spreadsheet.Graph
import Spreadsheet.WatchTable

namespace Spreadsheet

/-- The cells of a set in the rows of a rectangle: those between the first cell of its first row and
the last cell of its last row in the order of addresses. -/
def Range.rowsAmong (r : Range) (cells : CellSet) : List CellAddress :=
  let fromFirst := cells.toList.dropWhile fun c => compare c ⟨r.sheet, r.firstRow, 0⟩ == .lt
  fromFirst.takeWhile fun c => compare c ⟨r.sheet, r.lastRow, 4294967295⟩ != .gt

/-- The rectangles that cells watch. -/
structure RangeWatch extends WatchTable where
  /-- The two tables say the same. -/
  inverse : toWatchTable.Inverse
  /-- Nothing is kept that is not needed. -/
  trim : toWatchTable.Trim

namespace RangeWatch

/-- Nothing is watched. -/
def empty : RangeWatch where
  toWatchTable := .empty
  inverse := .empty
  trim := .empty

/-- Whether nothing is watched. -/
def isEmpty (w : RangeWatch) : Bool :=
  w.byWatcher.isEmpty

/-- The rectangles a cell watches. -/
def ranges (w : RangeWatch) (watcher : CellAddress) : List Range :=
  w.rangesOf watcher

/-- Lets a cell watch exactly the given rectangles. -/
def set (w : RangeWatch) (watcher : CellAddress) (ranges : List Range) : RangeWatch where
  toWatchTable := w.toWatchTable.set watcher ranges
  inverse := w.inverse.set
  trim := w.trim.set

/-- Lets a cell watch nothing. -/
def clear (w : RangeWatch) (watcher : CellAddress) : RangeWatch where
  toWatchTable := w.toWatchTable.clear watcher
  inverse := w.inverse.clear
  trim := w.trim.clear

/-- The cells that watch a rectangle around a cell, in ascending order. -/
def watchers (w : RangeWatch) (cell : CellAddress) : List CellAddress :=
  let around := w.byRange.toList.filter fun entry => entry.1.contains cell
  (Std.ExtTreeSet.ofList (around.flatMap fun entry => entry.2.toList)).toList

/-- The cells of a set that a cell watches, in ascending order. -/
def watchedAmong (w : RangeWatch) (watcher : CellAddress) (cells : CellSet) : List CellAddress :=
  let found := (w.ranges watcher).flatMap fun r => (r.rowsAmong cells).filter r.contains
  (Std.ExtTreeSet.ofList found).toList

theorem ext_ranges {v w : RangeWatch} (heq : ∀ c, v.ranges c = w.ranges c) : v = w := by
  have htable := WatchTable.ext_rangesOf v.inverse v.trim w.inverse w.trim heq
  cases v; cases w; simp_all

@[simp] theorem ranges_empty (c : CellAddress) : empty.ranges c = [] := by
  simp [ranges, empty, WatchTable.rangesOf, WatchTable.empty]

@[simp] theorem ranges_set_self (w : RangeWatch) (c : CellAddress) (l : List Range) :
    (w.set c l).ranges c = l :=
  WatchTable.rangesOf_set_self

theorem ranges_set_other (w : RangeWatch) {c d : CellAddress} (h : c ≠ d) (l : List Range) :
    (w.set c l).ranges d = w.ranges d :=
  WatchTable.rangesOf_set_other h.symm

@[simp] theorem ranges_clear_self (w : RangeWatch) (c : CellAddress) : (w.clear c).ranges c = [] :=
  WatchTable.rangesOf_clear_self

theorem ranges_clear_other (w : RangeWatch) {c d : CellAddress} (h : c ≠ d) :
    (w.clear c).ranges d = w.ranges d :=
  WatchTable.rangesOf_clear_other h.symm

theorem mem_watchers {w : RangeWatch} {cell watcher : CellAddress} :
    watcher ∈ w.watchers cell ↔ ∃ r ∈ w.ranges watcher, r.contains cell = true := by
  simp only [watchers, Std.ExtTreeSet.mem_toList, mem_set_ofList, List.mem_flatMap, List.mem_filter]
  constructor
  · rintro ⟨⟨r, found⟩, ⟨hr, hcell⟩, hfound⟩
    rw [Std.ExtTreeMap.mem_toList_iff_getElem?_eq_some] at hr
    refine ⟨r, (w.inverse watcher r).1 ?_, hcell⟩
    rwa [WatchTable.watchersOf, Std.ExtTreeMap.getD_eq_getD_getElem?, hr]
  · rintro ⟨r, hr, hcell⟩
    have hwatcher : watcher ∈ w.watchersOf r := (w.inverse watcher r).2 hr
    have hmem : r ∈ w.byRange := by
      false_or_by_contra
      rename_i hno
      rw [WatchTable.watchersOf, Std.ExtTreeMap.getD_eq_fallback hno] at hwatcher
      exact Std.ExtTreeSet.not_mem_empty hwatcher
    refine ⟨(r, w.watchersOf r), ⟨?_, hcell⟩, hwatcher⟩
    rw [Std.ExtTreeMap.mem_toList_iff_getElem?_eq_some]
    exact Std.ExtTreeMap.getElem?_eq_some_getD hmem

theorem mem_byWatcher {w : RangeWatch} {c : CellAddress} : c ∈ w.byWatcher ↔ w.ranges c ≠ [] := by
  constructor
  · intro h hnil
    exact w.trim.allWatching c ((Std.ExtTreeMap.getElem?_eq_some_getD h).trans (congrArg some hnil))
  · intro h
    false_or_by_contra
    exact h (Std.ExtTreeMap.getD_eq_fallback ‹_›)

/-- Watching as edges of the dependency graph. -/
def furtherEdges (w : RangeWatch) : FurtherEdges CellAddress where
  dependents := w.watchers
  support := .ofList w.byWatcher.keys
  mem_support a b h := by
    obtain ⟨r, hr, -⟩ := mem_watchers.1 h
    rw [mem_set_ofList, Std.ExtTreeMap.mem_keys, mem_byWatcher]
    exact List.ne_nil_of_mem hr

end RangeWatch

end Spreadsheet
