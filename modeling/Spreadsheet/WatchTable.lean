/-
Rectangles and the cells that watch them, in two tables: which cells watch a rectangle, and which
rectangles a cell watches, as they were set. `clear` takes a cell from all the rectangles that it
watches, and `set` adds it anew to those that it is to watch. Both keep the tables inverse to each
other (`Inverse.clear`, `Inverse.set`) and leave neither a rectangle that no cell watches nor a cell
that watches none (`Trim.clear`, `Trim.set`).
-/
import Spreadsheet.Address
import Spreadsheet.Sets
import Std.Data.ExtTreeMap

namespace Spreadsheet

/-- What cells watch, looked up from either side. -/
structure WatchTable where
  /-- The cells that watch each rectangle. -/
  byRange : Std.ExtTreeMap Range CellSet
  /-- The rectangles that each cell watches, as they were set. -/
  byWatcher : Std.ExtTreeMap CellAddress (List Range)

namespace WatchTable

/-- Nothing is watched. -/
def empty : WatchTable := ⟨∅, ∅⟩

/-- The rectangles that a cell watches. -/
def rangesOf (t : WatchTable) (watcher : CellAddress) : List Range :=
  t.byWatcher.getD watcher []

/-- The cells that watch a rectangle. -/
def watchersOf (t : WatchTable) (r : Range) : CellSet :=
  t.byRange.getD r ∅

/-- Puts a cell among those that watch a rectangle. -/
def addWatcher (t : WatchTable) (watcher : CellAddress) (r : Range) : WatchTable :=
  { t with byRange := t.byRange.insert r ((t.watchersOf r).insert watcher) }

/-- Takes a cell from those that watch a rectangle, which is dropped if no other cell watches it. -/
def removeWatcher (t : WatchTable) (watcher : CellAddress) (r : Range) : WatchTable :=
  let others := (t.watchersOf r).erase watcher
  { t with byRange := if others.isEmpty then t.byRange.erase r else t.byRange.insert r others }

def addWatchers (t : WatchTable) (watcher : CellAddress) (ranges : List Range) : WatchTable :=
  ranges.foldl (addWatcher · watcher ·) t

def removeWatchers (t : WatchTable) (watcher : CellAddress) (ranges : List Range) : WatchTable :=
  ranges.foldl (removeWatcher · watcher ·) t

/-- Lets a cell watch nothing. -/
def clear (t : WatchTable) (watcher : CellAddress) : WatchTable :=
  { t.removeWatchers watcher (t.rangesOf watcher) with
    byWatcher := t.byWatcher.erase watcher }

/-- Lets a cell watch exactly the given rectangles. -/
def set (t : WatchTable) (watcher : CellAddress) (ranges : List Range) : WatchTable :=
  let cleared := t.clear watcher
  if ranges = [] then cleared
  else { cleared.addWatchers watcher ranges with
    byWatcher := cleared.byWatcher.insert watcher ranges }

variable {t u : WatchTable} {a b : CellAddress} {q r : Range} {l : List Range}

/-! ## The watchers of a rectangle -/

theorem mem_watchersOf_addWatcher :
    b ∈ (t.addWatcher a r).watchersOf q ↔ b = a ∧ q = r ∨ b ∈ t.watchersOf q := by
  by_cases hq : q = r
  · subst hq
    have hself : (t.addWatcher a q).watchersOf q = (t.watchersOf q).insert a := by
      simp [watchersOf, addWatcher]
    rw [hself, mem_set_insert]
    simp
  · have hne : compare r q ≠ .eq := fun he => hq (Std.LawfulEqCmp.eq_of_compare he).symm
    simp [watchersOf, addWatcher, Std.ExtTreeMap.getD_insert, hne, hq]

theorem mem_watchersOf_removeWatcher :
    b ∈ (t.removeWatcher a r).watchersOf q ↔ b ∈ t.watchersOf q ∧ ¬ (b = a ∧ q = r) := by
  by_cases hq : q = r
  · subst hq
    have hself : (t.removeWatcher a q).watchersOf q = (t.watchersOf q).erase a := by
      rw [watchersOf, removeWatcher]
      dsimp only
      split
      · rename_i hnone
        rw [Std.ExtTreeMap.getD_erase_self, Std.ExtTreeSet.isEmpty_iff.1 hnone]
      · exact Std.ExtTreeMap.getD_insert_self
    rw [hself, mem_set_erase]
    simp [and_comm]
  · have hne : compare r q ≠ .eq := fun he => hq (Std.LawfulEqCmp.eq_of_compare he).symm
    have hother : (t.removeWatcher a r).watchersOf q = t.watchersOf q := by
      rw [watchersOf, removeWatcher]
      dsimp only
      split <;> simp [watchersOf, Std.ExtTreeMap.getD_insert, Std.ExtTreeMap.getD_erase, hne]
    simp [hother, hq]

theorem mem_watchersOf_addWatchers :
    b ∈ (t.addWatchers a l).watchersOf q ↔ b = a ∧ q ∈ l ∨ b ∈ t.watchersOf q := by
  induction l generalizing t with
  | nil => simp [addWatchers]
  | cons r l ih =>
    rw [addWatchers, List.foldl_cons, ← addWatchers, ih, mem_watchersOf_addWatcher, List.mem_cons,
      and_or_left, or_assoc, or_left_comm]

theorem mem_watchersOf_removeWatchers :
    b ∈ (t.removeWatchers a l).watchersOf q ↔ b ∈ t.watchersOf q ∧ ¬ (b = a ∧ q ∈ l) := by
  induction l generalizing t with
  | nil => simp [removeWatchers]
  | cons r l ih =>
    rw [removeWatchers, List.foldl_cons, ← removeWatchers, ih, mem_watchersOf_removeWatcher,
      List.mem_cons, and_or_left, not_or, and_assoc]

/-! ## The rectangles of a watcher -/

theorem rangesOf_clear_self : (t.clear a).rangesOf a = [] := by
  simp [rangesOf, clear]

theorem rangesOf_clear_other (h : b ≠ a) : (t.clear a).rangesOf b = t.rangesOf b := by
  have hne : compare a b ≠ .eq := fun he => h (Std.LawfulEqCmp.eq_of_compare he).symm
  simp [rangesOf, clear, Std.ExtTreeMap.getD_erase, hne]

theorem rangesOf_set_self : (t.set a l).rangesOf a = l := by
  by_cases hl : l = []
  · simp only [set, hl, if_true, rangesOf_clear_self]
  · simp [set, hl, rangesOf]

theorem rangesOf_set_other (h : b ≠ a) : (t.set a l).rangesOf b = t.rangesOf b := by
  have hcleared := rangesOf_clear_other (t := t) h
  by_cases hl : l = []
  · simp only [set, hl, if_true, hcleared]
  · have hne : compare a b ≠ .eq := fun he => h (Std.LawfulEqCmp.eq_of_compare he).symm
    rw [← hcleared]
    simp [set, hl, rangesOf, Std.ExtTreeMap.getD_insert, hne]

/-! ## Two directions -/

/-- A cell is among the watchers of a rectangle if the rectangle is among those of the cell. -/
def Inverse (t : WatchTable) : Prop :=
  ∀ c r, c ∈ t.watchersOf r ↔ r ∈ t.rangesOf c

theorem Inverse.empty : empty.Inverse := by
  simp [Inverse, WatchTable.empty, watchersOf, rangesOf]

theorem Inverse.clear (h : t.Inverse) : (t.clear a).Inverse := by
  intro c r
  refine mem_watchersOf_removeWatchers.trans ?_
  rw [h c r]
  by_cases hc : c = a
  · subst hc
    simp [rangesOf_clear_self]
  · simp [rangesOf_clear_other hc, hc]

/-- **The two directions agree** when the rectangles of one cell have been replaced. -/
theorem Inverse.set (h : t.Inverse) : (t.set a l).Inverse := by
  have hcleared := h.clear (a := a)
  by_cases hl : l = []
  · simpa only [WatchTable.set, hl, if_true] using hcleared
  intro c r
  have hset : c ∈ (t.set a l).watchersOf r ↔ c = a ∧ r ∈ l ∨ c ∈ (t.clear a).watchersOf r := by
    rw [WatchTable.set, if_neg hl]
    exact mem_watchersOf_addWatchers
  rw [hset, hcleared c r]
  by_cases hc : c = a
  · subst hc
    simp [rangesOf_clear_self, rangesOf_set_self]
  · simp [rangesOf_clear_other hc, rangesOf_set_other hc, hc]

/-! ## Nothing left over -/

/-- No rectangle is kept that no cell watches. -/
def AllWatched (t : WatchTable) : Prop :=
  ∀ r : Range, t.byRange[r]? ≠ some ∅

/-- No cell is kept that watches no rectangle. -/
def AllWatching (t : WatchTable) : Prop :=
  ∀ c : CellAddress, t.byWatcher[c]? ≠ some []

theorem AllWatched.addWatcher (h : t.AllWatched) : (t.addWatcher a r).AllWatched := by
  intro q
  rw [WatchTable.addWatcher, Std.ExtTreeMap.getElem?_insert]
  split
  · simp
  · exact h q

theorem AllWatched.removeWatcher (h : t.AllWatched) : (t.removeWatcher a r).AllWatched := by
  intro q
  rw [WatchTable.removeWatcher]
  dsimp only
  split
  · rw [Std.ExtTreeMap.getElem?_erase]
    split
    · simp
    · exact h q
  · rename_i hsome
    rw [Std.ExtTreeMap.getElem?_insert]
    split
    · rwa [ne_eq, Option.some.injEq, ← Std.ExtTreeSet.isEmpty_iff]
    · exact h q

theorem AllWatched.addWatchers (h : t.AllWatched) : (t.addWatchers a l).AllWatched := by
  induction l generalizing t with
  | nil => exact h
  | cons r l ih => exact ih h.addWatcher

theorem AllWatched.removeWatchers (h : t.AllWatched) : (t.removeWatchers a l).AllWatched := by
  induction l generalizing t with
  | nil => exact h
  | cons r l ih => exact ih h.removeWatcher

theorem AllWatching.clear (h : t.AllWatching) : (t.clear a).AllWatching := by
  intro c
  rw [WatchTable.clear, Std.ExtTreeMap.getElem?_erase]
  split
  · simp
  · exact h c

/-- Neither a rectangle nor a cell is kept for nothing. -/
structure Trim (t : WatchTable) : Prop where
  allWatched : t.AllWatched
  allWatching : t.AllWatching

theorem Trim.empty : empty.Trim := by
  constructor <;> simp [AllWatched, AllWatching, WatchTable.empty]

theorem Trim.clear (h : t.Trim) : (t.clear a).Trim :=
  ⟨h.allWatched.removeWatchers, h.allWatching.clear⟩

/-- **Nothing is left over** when the rectangles of one cell have been replaced. -/
theorem Trim.set (h : t.Trim) : (t.set a l).Trim := by
  have hcleared := h.clear (a := a)
  rw [WatchTable.set]
  dsimp only
  split
  · exact hcleared
  · rename_i hl
    refine ⟨hcleared.allWatched.addWatchers, fun c => ?_⟩
    rw [Std.ExtTreeMap.getElem?_insert]
    split
    · simpa using hl
    · exact hcleared.allWatching c

/-! ## Telling tables apart -/

/-- Maps without an entry for a default are told apart by lookups with that default. -/
theorem ext_getD {α β : Type} [Ord α] [Std.TransOrd α] [Std.LawfulEqOrd α]
    {m m' : Std.ExtTreeMap α β} {d : β} (hm : ∀ a : α, m[a]? ≠ some d)
    (hm' : ∀ a : α, m'[a]? ≠ some d) (heq : ∀ a, m.getD a d = m'.getD a d) : m = m' := by
  refine Std.ExtTreeMap.ext_getElem? fun a => ?_
  have ha := hm a
  have ha' := hm' a
  have heq := heq a
  rw [Std.ExtTreeMap.getD_eq_getD_getElem?, Std.ExtTreeMap.getD_eq_getD_getElem?] at heq
  cases h : m[a]? <;> cases h' : m'[a]? <;> simp_all

theorem ext_rangesOf (ht : t.Inverse) (ht' : t.Trim) (hu : u.Inverse) (hu' : u.Trim)
    (heq : ∀ c, t.rangesOf c = u.rangesOf c) : t = u := by
  have hwatchers : ∀ r, t.watchersOf r = u.watchersOf r := fun r =>
    Std.ExtTreeSet.ext_mem fun c => by rw [ht, hu, heq]
  have hrange : t.byRange = u.byRange := ext_getD ht'.allWatched hu'.allWatched hwatchers
  have hwatcher : t.byWatcher = u.byWatcher := ext_getD ht'.allWatching hu'.allWatching heq
  cases t
  cases u
  simp_all

end WatchTable

end Spreadsheet
