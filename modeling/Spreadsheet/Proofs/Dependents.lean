/-
What the audit of a cell says about its edits. In a workbook where nothing
is dirty, an edit of a cell makes dirty that cell and what the audit lists
as its dependents, whether the audit is asked before the edit or after it
(`Workbook.edit_dirties_dependents`): an edit ties the cell to something
else, and what a cell is tied to does not matter to what is tied to it.
-/
import Spreadsheet.Proofs.DirtySet
import Spreadsheet.Workbook.Audit

namespace Spreadsheet

namespace Workbook

/-- A cell and its dependents are the same before and after the cell has been replaced. -/
theorem Edited.insert_dependents {w u : Workbook} {x : CellAddress} {content : Option CellContent}
    {d : Dependencies} {usesNames : Bool} (he : w.Edited u x content d usesNames) :
    (u.dependents x).insert x = (w.dependents x).insert x :=
  Links.insert_transitiveDependents_congr fun _ _ hc =>
    above_iff_tied.trans ((he.tied_other hc).trans above_iff_tied.symm)

theorem dirty_markDirty_of_clean {w : Workbook} (h : w.dirty = ∅) (x : CellAddress) :
    (w.markDirty x).dirty = (w.dependents x).insert x := by
  change w.graph.markDirty w.watch.furtherEdges x w.dirty = _
  rw [h, Links.markDirty_of_clean]
  rfl

/-- **An edit makes dirty exactly what the audit lists.** Where nothing is dirty, a successful edit
of a cell, with whatever input, makes dirty the cell itself and its dependents, and no other cell;
it does not matter whether the dependents are asked for before the edit or after it. -/
theorem edit_dirties_dependents {w : Workbook} {edit : Operation} {x : CellAddress}
    (hclean : w.dirty = ∅) (hedit : edit.target? = some (.cell x))
    (hok : (edit.perform w).2 = .ok ()) :
    let u := (edit.perform w).1
    u.dirty = (w.dependents x).insert x ∧ u.dirty = (u.dependents x).insert x := by
  intro u
  obtain ⟨v, d, usesNames, hv, -, he⟩ := perform_cell hedit hok
  have hafter : u.dirty = (v.dependents x).insert x :=
    (congrArg dirty hv).trans (dirty_markDirty_of_clean (he.dirty.trans hclean) x)
  have hsame : u.dependents x = v.dependents x := congrArg (·.dependents x) hv
  exact ⟨hafter.trans he.insert_dependents, hsame ▸ hafter⟩

/-- An edit that closes a circle, through an edge and a watched rectangle: the cell is no dependent
of itself before the edit and is one after it, and the dirty cells are the same three by both. -/
theorem edit_dirties_dependents_circle :
    let w := (Workbook.empty .skip).run [.appendSheet "S", .setCell ⟨0, 9, 0⟩ (.text "a"),
      .setCell ⟨0, 0, 1⟩ (.formula "=MAX(A1:A5000)"), .setCell ⟨0, 0, 2⟩ (.formula "=-B1"),
      .calculate]
    let edit := Operation.setCell ⟨0, 9, 0⟩ (.formula "=C1")
    let u := (edit.perform w).1
    (w.dirty = ∅ ∧ edit.target? = some (.cell ⟨0, 9, 0⟩) ∧ (edit.perform w).2 = .ok () ∧
        (w.dependents ⟨0, 9, 0⟩).toList = [⟨0, 0, 1⟩, ⟨0, 0, 2⟩] ∧
        (u.dependents ⟨0, 9, 0⟩).toList = [⟨0, 0, 1⟩, ⟨0, 0, 2⟩, ⟨0, 9, 0⟩]) ∧
      u.dirty = (w.dependents ⟨0, 9, 0⟩).insert ⟨0, 9, 0⟩ ∧
      u.dirty = (u.dependents ⟨0, 9, 0⟩).insert ⟨0, 9, 0⟩ := by
  refine (fun facts => ⟨facts, ?_⟩) (by cbv)
  obtain ⟨hclean, hedit, hok, -⟩ := facts
  exact edit_dirties_dependents hclean hedit hok

end Workbook

end Spreadsheet
