/-
The two lists of an audit. The precedents of a cell are the cells that its
formula reads, as far as they are occupied (`WiredOK.mem_precedents_iff`),
and the dependents of a cell are what it leads to by steps of reading
(`mem_dependents`). A cell that reads anything holds a formula and so is
occupied itself, which is why the two lists are converse: from an occupied
cell on, no step is missing from the precedents
(`Workbook.dependents_iff_precedent_chain`).
-/
import Spreadsheet.Proofs.Dependents
import Spreadsheet.Proofs.Wiring

namespace Spreadsheet

open Relation

namespace Workbook

/-- The precedents of a cell are the cells on its edges, and the occupied cells inside the
rectangles that it watches. -/
theorem mem_precedents {w : Workbook} {c x : CellAddress} : x ∈ w.precedents c ↔
    x ∈ w.graph.dependencies c ∨ (∃ r ∈ w.watch.ranges c, r.contains x = true) ∧
      w.store.get? x ≠ none := by
  simp only [precedents, mem_set_insertMany, List.mem_flatMap, Store.mem_occupiedIn, ← and_assoc,
    exists_and_right]
  exact or_comm

/-- **An occupied cell is a precedent of the cells whose formulas read it**, and of no others. -/
theorem WiredOK.mem_precedents_iff {w : Workbook} (h : w.WiredOK) {c x : CellAddress}
    (hx : w.store.get? x ≠ none) : x ∈ w.precedents c ↔ w.DependsOn c x := by
  rw [mem_precedents, and_iff_left hx, ← h.tied_iff, Tied]

theorem mem_dependents {w : Workbook} {a c : CellAddress} :
    c ∈ w.dependents a ↔ TransGen (fun x y => w.Tied y x) a c := by
  have hsteps : w.graph.Above w.watch.furtherEdges = fun x y => w.Tied y x := by
    funext x y
    exact propext above_iff_tied
  rw [dependents, Links.mem_transitiveDependents, hsteps]

theorem DependsOn.get?_ne_none {w : Workbook} {c x : CellAddress} (h : w.DependsOn c x) :
    w.store.get? c ≠ none := by
  obtain ⟨f, hf, -⟩ := h
  obtain ⟨result, hget⟩ := Store.formula?_eq_some.1 hf
  simp [hget]

/-- **The two lists of an audit are converse.** However a workbook came about, an occupied cell is a
precedent of exactly the cells whose formulas read it, through a reference that was spread out, a
rectangle that is watched or a name; and its dependents are exactly the cells at the end of a chain
of one step or more, from each cell of the chain to a cell that has it among its precedents. So the
cell itself is among its dependents if and only if such a chain leads back to it. -/
theorem dependents_iff_precedent_chain (policy : TextPolicy) (operations : List Operation)
    (a : CellAddress) :
    let w := (Workbook.empty policy).run operations
    w.store.get? a ≠ none → ∀ c, (a ∈ w.precedents c ↔ w.DependsOn c a) ∧
      (c ∈ w.dependents a ↔ TransGen (fun x y => x ∈ w.precedents y) a c) := by
  intro w ha c
  have hwired : w.WiredOK := Reachable.wiredOK ⟨policy, operations, rfl⟩
  refine ⟨hwired.mem_precedents_iff ha, ?_⟩
  rw [mem_dependents]
  -- the steps agree at occupied cells, and each leads to a cell that reads, so to an occupied one
  refine transGen_congr_on (P := fun x => w.store.get? x ≠ none) (fun x y hx => ?_)
    (fun x y _ hxy => (hwired.tied_iff.1 hxy).get?_ne_none) ha
  rw [hwired.tied_iff, hwired.mem_precedents_iff hx]

/-- A circle through a watched rectangle, a name and a single reference: the cell in the rectangle
is its own dependent, at the end of a chain of precedents. -/
theorem dependents_iff_precedent_chain_circle :
    let w := (Workbook.empty .skip).run [.appendSheet "S", .defineName "rate" "-B1",
      .setCell ⟨0, 0, 1⟩ (.formula "=MAX(A1:A5000)"), .setCell ⟨0, 0, 2⟩ (.formula "=rate"),
      .setCell ⟨0, 9, 0⟩ (.formula "=C1")]
    (w.store.get? ⟨0, 9, 0⟩ ≠ none ∧
        (w.precedents ⟨0, 0, 1⟩).toList = [⟨0, 9, 0⟩] ∧
        (w.precedents ⟨0, 0, 2⟩).toList = [⟨0, 0, 1⟩] ∧
        (w.dependents ⟨0, 9, 0⟩).toList = [⟨0, 0, 1⟩, ⟨0, 0, 2⟩, ⟨0, 9, 0⟩]) ∧
      w.DependsOn ⟨0, 0, 1⟩ ⟨0, 9, 0⟩ ∧
      TransGen (fun x y => x ∈ w.precedents y) ⟨0, 9, 0⟩ ⟨0, 9, 0⟩ := by
  refine (fun facts => ⟨facts, ?_⟩) (by cbv; simp)
  obtain ⟨hget, hprecedents, -, hdependents⟩ := facts
  have hconverse := dependents_iff_precedent_chain .skip _ ⟨0, 9, 0⟩ hget
  refine ⟨(hconverse _).1.1 ?_, (hconverse _).2.1 ?_⟩
  · rw [← Std.ExtTreeSet.mem_toList, hprecedents]
    exact List.mem_singleton_self _
  · rw [← Std.ExtTreeSet.mem_toList, hdependents]
    simp

end Workbook

end Spreadsheet
