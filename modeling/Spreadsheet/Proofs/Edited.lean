/-
What an edit changes. Writing a cell, emptying it and wiring it anew all
have one shape: the content and the dependencies of the one cell are
replaced (`Workbook.Edited`), then the cell is marked dirty. Marking drops
results and changes nothing else (`get?_markDirty`).
-/
import Spreadsheet.Workbook.Edit
import Spreadsheet.Proofs.Marking

namespace Spreadsheet

/-! ## Results in the store -/

@[simp] theorem CellContent.withResult_withResult (c : CellContent) (r r' : Option CellResult) :
    (c.withResult r).withResult r' = c.withResult r' := by
  cases c <;> rfl

namespace Store

theorem formula?_eq_some {s : Store} {c : CellAddress} {f : Formula} :
    s.formula? c = some f ↔ ∃ r, s.get? c = some (.formula f r) := by
  unfold formula?
  split
  · rename_i g r hget
    simp [hget]
  · rename_i hno
    constructor
    · simp
    · rintro ⟨r, h⟩
      exact absurd h (hno f r)

theorem isFormula_iff {s : Store} {c : CellAddress} :
    s.isFormula c = true ↔ ∃ f, s.formula? c = some f := by
  unfold isFormula formula?
  cases s.get? c with
  | none => simp
  | some content => cases content <;> simp [CellContent.isFormula]

theorem result?_of_get? {s : Store} {c : CellAddress} {f : Formula} {r : Option CellResult}
    (h : s.get? c = some (.formula f r)) : s.result? c = r := by
  rw [result?, h]

theorem get?_of_formula? {s : Store} {c : CellAddress} {f : Formula} (h : s.formula? c = some f) :
    s.get? c = some (.formula f (s.result? c)) := by
  obtain ⟨r, hr⟩ := formula?_eq_some.1 h
  rw [hr, result?_of_get? hr]

theorem formula?_of_result? {s : Store} {c : CellAddress} {r : CellResult}
    (h : s.result? c = some r) : ∃ f, s.formula? c = some f := by
  unfold result? at h
  split at h
  · rename_i f _ hget
    exact ⟨f, formula?_eq_some.2 ⟨_, hget⟩⟩
  · cases h

theorem formula?_congr {s t : Store} {c : CellAddress} (h : s.get? c = t.get? c) :
    s.formula? c = t.formula? c := by
  rw [formula?, h, formula?]

theorem result?_congr {s t : Store} {c : CellAddress} (h : s.get? c = t.get? c) :
    s.result? c = t.result? c := by
  rw [result?, h, result?]

theorem formula?_of_map {s t : Store} {c : CellAddress} {r : Option CellResult}
    (h : t.get? c = (s.get? c).map (CellContent.withResult r)) : t.formula? c = s.formula? c := by
  rw [formula?, h, formula?]
  cases s.get? c with
  | none => rfl
  | some content => cases content <;> rfl

/-- The same result put into every listed cell. -/
def putResults (result : Option CellResult) (cells : List CellAddress) (s : Store) : Store :=
  cells.foldl (fun s c => s.putResult c result) s

theorem get?_putResults (result : Option CellResult) (c : CellAddress) :
    ∀ (cells : List CellAddress) (s : Store), (s.putResults result cells).get? c =
      if c ∈ cells then (s.get? c).map (CellContent.withResult result) else s.get? c
  | [], s => by simp [putResults]
  | d :: cells, s => by
    have ih := get?_putResults result c cells (s.putResult d result)
    rw [get?_putResult] at ih
    refine ih.trans ?_
    by_cases hcd : c = d
    · subst hcd
      cases s.get? c <;> simp
    · simp [hcd]

theorem sheets_putResults (result : Option CellResult) :
    ∀ (cells : List CellAddress) (s : Store), (s.putResults result cells).sheets = s.sheets
  | [], _ => rfl
  | c :: cells, s => (sheets_putResults result cells (s.putResult c result)).trans (by simp)

end Store

namespace Workbook

/-! ## Marking -/

/-- The cells that marking a cell flags. -/
def newly (w : Workbook) (x : CellAddress) : CellSet :=
  w.graph.newlyDirty w.watch.furtherEdges x w.dirty

theorem store_markDirty (w : Workbook) (x : CellAddress) :
    (w.markDirty x).store = w.store.putResults none (w.newly x).toList := rfl

theorem get?_markDirty (w : Workbook) (x c : CellAddress) : (w.markDirty x).store.get? c =
    if c ∈ w.newly x then (w.store.get? c).map (CellContent.withResult none)
    else w.store.get? c := by
  simp only [store_markDirty, Store.get?_putResults, Std.ExtTreeSet.mem_toList]

@[simp] theorem sheets_markDirty (w : Workbook) (x : CellAddress) :
    (w.markDirty x).store.sheets = w.store.sheets := by
  rw [store_markDirty, Store.sheets_putResults]

theorem mem_dirty_markDirty {w : Workbook} {x c : CellAddress} :
    c ∈ (w.markDirty x).dirty ↔ c ∈ w.newly x ∨ c ∈ w.dirty := Links.mem_markDirty

theorem self_mem_dirty_markDirty (w : Workbook) (x : CellAddress) : x ∈ (w.markDirty x).dirty := by
  change x ∈ w.graph.markDirty w.watch.furtherEdges x w.dirty
  exact Links.mem_markDirty_self

@[simp] theorem names_markDirty (w : Workbook) (x : CellAddress) :
    (w.markDirty x).names = w.names := rfl

/-- What is not dirty after marking was not dirty before and keeps its content. -/
theorem markDirty_clean {w : Workbook} {x c : CellAddress} (h : c ∉ (w.markDirty x).dirty) :
    c ∉ w.dirty ∧ (w.markDirty x).store.get? c = w.store.get? c := by
  rw [mem_dirty_markDirty, not_or] at h
  exact ⟨h.2, by rw [get?_markDirty, if_neg h.1]⟩

theorem formula?_markDirty (w : Workbook) (x c : CellAddress) :
    (w.markDirty x).store.formula? c = w.store.formula? c := by
  by_cases h : c ∈ w.newly x
  · exact Store.formula?_of_map (by rw [get?_markDirty, if_pos h])
  · exact Store.formula?_congr (by rw [get?_markDirty, if_neg h])

/-! ## One cell replaced -/

/-- A workbook with the content, the dependencies and the use of names of one cell replaced, and
with all else as it was. -/
structure Edited (w u : Workbook) (x : CellAddress) (content : Option CellContent)
    (d : Dependencies) (usesNames : Bool) : Prop where
  get?_self : u.store.get? x = content
  get?_other : ∀ c, c ≠ x → u.store.get? c = w.store.get? c
  dependencies_self : u.graph.dependencies x = .ofList d.cells
  dependencies_other : ∀ c, c ≠ x → u.graph.dependencies c = w.graph.dependencies c
  ranges_self : u.watch.ranges x = d.ranges
  ranges_other : ∀ c, c ≠ x → u.watch.ranges c = w.watch.ranges c
  nameUsers_self : x ∈ u.nameUsers ↔ usesNames = true
  nameUsers_other : ∀ c, c ≠ x → (c ∈ u.nameUsers ↔ c ∈ w.nameUsers)
  sheets : u.store.sheets = w.store.sheets
  names : u.names = w.names
  dirty : u.dirty = w.dirty
  policy : u.policy = w.policy

theorem dependencies_wire_self (w : Workbook) (x : CellAddress) (d : Dependencies) :
    (w.wire x d).graph.dependencies x = .ofList d.cells :=
  Links.dependencies_setEdges_self _ _ _

theorem dependencies_wire_other (w : Workbook) {x c : CellAddress} (h : c ≠ x) (d : Dependencies) :
    (w.wire x d).graph.dependencies c = w.graph.dependencies c :=
  Links.dependencies_setEdges_other _ h.symm _

theorem ranges_wire_other (w : Workbook) {x c : CellAddress} (h : c ≠ x) (d : Dependencies) :
    (w.wire x d).watch.ranges c = w.watch.ranges c :=
  RangeWatch.ranges_set_other _ h.symm _

theorem write_edited {w : Workbook} {x : CellAddress} (hx : w.store.hasSheet x.sheet = true)
    (content : CellContent) (usesNames : Bool) (d : Dependencies) :
    ∃ u, w.write x content usesNames d = u.markDirty x ∧ w.Edited u x (some content) d usesNames := by
  refine ⟨_, rfl, Store.get?_set_self hx content, fun c hc => Store.get?_set_other _ hc.symm _,
    dependencies_wire_self _ _ _, fun c hc => dependencies_wire_other _ hc _,
    RangeWatch.ranges_set_self _ _ _, fun c hc => ranges_wire_other _ hc _, ?_, fun c hc => ?_,
    Store.sheets_set _ _ _, rfl, rfl, rfl⟩
  · cases usesNames <;> simp [wire]
  · cases usesNames with
    | false => exact mem_set_erase.trans (and_iff_right hc)
    | true => exact mem_set_insert.trans (or_iff_right hc)

theorem clearCell_edited (w : Workbook) (x : CellAddress) :
    ∃ u, w.clearCell x = u.markDirty x ∧ w.Edited u x none .none false := by
  refine ⟨_, rfl, Store.get?_erase_self _ _, fun c hc => Store.get?_erase_other _ hc.symm,
    dependencies_wire_self _ _ _, fun c hc => dependencies_wire_other _ hc _,
    RangeWatch.ranges_set_self _ _ _, fun c hc => ranges_wire_other _ hc _, ?_, fun c hc => ?_,
    Store.sheets_erase _ _, rfl, rfl, rfl⟩
  · simp [wire]
  · exact mem_set_erase.trans (and_iff_right hc)

theorem rewire_edited {w : Workbook} {x : CellAddress} {f : Formula}
    (hf : w.store.formula? x = some f) :
    ∃ u, w.rewire x = u.markDirty x ∧ w.Edited u x (w.store.get? x) (dependenciesOf w.names f)
      (w.nameUsers.contains x) := by
  refine ⟨w.wire x (dependenciesOf w.names f), by rw [rewire, hf], rfl, fun c _ => rfl,
    dependencies_wire_self _ _ _, fun c hc => dependencies_wire_other _ hc _,
    RangeWatch.ranges_set_self _ _ _, fun c hc => ranges_wire_other _ hc _,
    Std.ExtTreeSet.mem_iff_contains, fun c _ => Iff.rfl, rfl, rfl, rfl, rfl⟩

end Workbook

end Spreadsheet
