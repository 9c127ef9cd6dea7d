/-
Which cells are dirty. A formula is dirty exactly when it has no result,
and a dirty cell makes dirty whatever is tied to it, by an edge or by a
watched rectangle (`Workbook.DirtyOK`). Replacing one cell and marking it
keeps this (`DirtyOK.edited`), and so does every step (`DirtyOK.step`).
-/
import Spreadsheet.Proofs.Steps

namespace Spreadsheet

namespace Workbook

/-- Whether a cell is tied to an input, by an edge or by a rectangle that it watches. -/
def Tied (w : Workbook) (c input : CellAddress) : Prop :=
  input ∈ w.graph.dependencies c ∨ ∃ r ∈ w.watch.ranges c, r.contains input = true

theorem above_iff_tied {w : Workbook} {c input : CellAddress} :
    w.graph.Above w.watch.furtherEdges input c ↔ w.Tied c input := by
  rw [Links.Above]
  exact or_congr_right RangeWatch.mem_watchers

/-- Dirty formulas are those without a result, and what is tied to a dirty cell is dirty. -/
structure DirtyOK (w : Workbook) : Prop where
  stale : ∀ c f, w.store.formula? c = some f → (c ∈ w.dirty ↔ w.store.result? c = none)
  closed : ∀ d ∈ w.dirty, ∀ c, w.Tied c d → c ∈ w.dirty

/-! ## Marking -/

theorem result?_of_newly {w : Workbook} {x c : CellAddress} (h : c ∈ w.newly x) :
    (w.markDirty x).store.result? c = none := by
  rw [Store.result?, get?_markDirty, if_pos h]
  cases w.store.get? c with
  | none => rfl
  | some content => cases content <;> rfl

/-- Marking a cell restores what a change of that cell alone has disturbed. -/
theorem DirtyOK.of_marked {u : Workbook} {x : CellAddress}
    (hstale : ∀ c f, u.store.formula? c = some f → c ∉ u.newly x →
      (c ∈ u.dirty ↔ u.store.result? c = none))
    (hclosed : ∀ d ∈ u.dirty, ∀ c, u.Tied c d → c ≠ x → c ∈ u.dirty) : (u.markDirty x).DirtyOK where
  stale c f hf := by
    by_cases hc : c ∈ u.newly x
    · exact iff_of_true (mem_dirty_markDirty.2 (.inl hc)) (result?_of_newly hc)
    · rw [formula?_markDirty] at hf
      rw [mem_dirty_markDirty, or_iff_right hc, Store.result?_congr (t := u.store)]
      · exact hstale c f hf hc
      · rw [get?_markDirty, if_neg hc]
  closed d hd c hc :=
    Links.markDirty_closed (fun b hb c hc => hclosed b hb c (above_iff_tied.1 hc)) d hd c
      (above_iff_tied.2 hc)

theorem DirtyOK.markDirty {w : Workbook} (h : w.DirtyOK) (x : CellAddress) :
    (w.markDirty x).DirtyOK :=
  .of_marked (fun c f hf _ => h.stale c f hf) fun d hd c hc _ => h.closed d hd c hc

theorem Edited.tied_other {w u : Workbook} {x c input : CellAddress} {content : Option CellContent}
    {d : Dependencies} {usesNames : Bool} (he : w.Edited u x content d usesNames) (hc : c ≠ x) :
    u.Tied c input ↔ w.Tied c input := by
  rw [Tied, he.dependencies_other c hc, he.ranges_other c hc, Tied]

/-- Replacing a cell and marking it keeps the dirty cells in order, if the cell comes without a
result wherever it was dirty already. -/
theorem DirtyOK.edited {w u : Workbook} {x : CellAddress} {content : Option CellContent}
    {d : Dependencies} {usesNames : Bool} (h : w.DirtyOK) (he : w.Edited u x content d usesNames)
    (hr : x ∈ w.dirty → u.store.result? x = none) : (u.markDirty x).DirtyOK := by
  refine .of_marked (fun c f hf hc => ?_) fun b hb c hc hcx => ?_
  · by_cases hcx : c = x
    · subst hcx
      have hdirty := (mem_dirty_markDirty.1 (self_mem_dirty_markDirty u c)).resolve_left hc
      exact iff_of_true hdirty (hr (he.dirty ▸ hdirty))
    · have hget := he.get?_other c hcx
      rw [he.dirty, Store.result?_congr hget]
      exact h.stale c f (Store.formula?_congr hget ▸ hf)
  · rw [he.dirty] at hb ⊢
    exact h.closed b hb c ((he.tied_other hcx).1 hc)

/-! ## Steps -/

theorem DirtyOK.empty (policy : TextPolicy) : (Workbook.empty policy).DirtyOK where
  stale c f hf := by
    obtain ⟨r, hr⟩ := Store.formula?_eq_some.1 hf
    simp [Workbook.empty, Store.empty, Store.get?] at hr
  closed d hd := by simp [Workbook.empty] at hd

theorem DirtyOK.rewire {w : Workbook} (h : w.DirtyOK) (x : CellAddress) : (w.rewire x).DirtyOK := by
  cases hf : w.store.formula? x with
  | none => simpa only [Workbook.rewire, hf] using h
  | some f =>
    obtain ⟨u, hu, he⟩ := rewire_edited hf
    refine hu ▸ h.edited he fun hx => ?_
    rw [Store.result?_congr he.get?_self]
    exact (h.stale x f hf).1 hx

theorem DirtyOK.calculate {w : Workbook} (h : w.DirtyOK) : w.calculate.1.DirtyOK where
  stale c f hf := by
    rw [formula?_calculate] at hf
    refine iff_of_false (by simp [Workbook.calculate]) ?_
    by_cases hc : c ∈ w.targets
    · exact result?_calculate_target hc
    · have hclean : c ∉ w.dirty := fun hd =>
        hc (mem_targets.2 ⟨hd, Store.isFormula_iff.2 ⟨f, hf⟩⟩)
      rw [Store.result?_congr (get?_calculate_other hc), ← h.stale c f hf]
      exact hclean
  closed d hd := by simp [Workbook.calculate] at hd

/-- **Every step keeps the dirty cells in order.** -/
theorem DirtyOK.step {w u : Workbook} (h : w.DirtyOK) (hs : w.Step u) : u.DirtyOK := by
  cases hs with
  | stay => exact h
  | addSheet name => exact ⟨h.stale, h.closed⟩
  | place hp he => exact h.edited he fun _ => hp.result?_eq he
  | bind name _ => exact foldl_keeps (fun _ x h => h.rewire x) _ ⟨h.stale, h.closed⟩
  | repolicy _ => exact foldl_keeps (fun _ x h => h.markDirty x) _ ⟨h.stale, h.closed⟩
  | calculate => exact h.calculate

theorem Reachable.dirtyOK {w : Workbook} (h : w.Reachable) : w.DirtyOK :=
  h.step_induction DirtyOK.empty fun _ _ hw hs => hw.step hs

/-- **Dirty means stale, after any operations.** However a workbook came about, a formula is dirty
if and only if it has no result; and whenever a cell is dirty, whatever it holds, every cell with an
edge to it and every cell that watches a rectangle around it is dirty too. -/
theorem dirty_iff_stale_and_closed (policy : TextPolicy) (operations : List Operation) :
    let w := (Workbook.empty policy).run operations
    (∀ c, w.store.isFormula c = true → (c ∈ w.dirty ↔ w.store.result? c = none)) ∧
      ∀ d ∈ w.dirty, (∀ c ∈ w.graph.dependents d, c ∈ w.dirty) ∧
        ∀ c ∈ w.watch.watchers d, c ∈ w.dirty := by
  intro w
  have h : w.DirtyOK := Reachable.dirtyOK ⟨policy, operations, rfl⟩
  refine ⟨fun c hc => ?_, fun d hd => ⟨fun c hc => ?_, fun c hc => ?_⟩⟩
  · obtain ⟨f, hf⟩ := Store.isFormula_iff.1 hc
    exact h.stale c f hf
  · exact h.closed d hd c (.inl (Links.mem_dependents.1 hc))
  · exact h.closed d hd c (.inr (RangeWatch.mem_watchers.1 hc))

/-- An edit inside a watched rectangle, after a calculation and a failed operation: the watcher and
what depends on it are dirty and have no results. A formula beside them keeps its result and is
clean. -/
theorem dirty_iff_stale_and_closed_watched :
    let w := (Workbook.empty .skip).run [.appendSheet "S",
      .setCell ⟨0, 0, 1⟩ (.formula "=LEN(A1:A5000)"), .setCell ⟨0, 0, 2⟩ (.formula "=B1"),
      .setCell ⟨0, 0, 3⟩ (.formula "=CONCATENATE(E1,\"y\")"),
      .calculate, .appendSheet "S", .setCell ⟨0, 0, 0⟩ (.text "x")]
    (w.store.isFormula ⟨0, 0, 2⟩ = true ∧ w.store.result? ⟨0, 0, 2⟩ = none ∧
      w.dirty.contains ⟨0, 0, 0⟩ = true ∧ w.watch.watchers ⟨0, 0, 0⟩ = [⟨0, 0, 1⟩] ∧
        w.store.isFormula ⟨0, 0, 3⟩ = true ∧ w.store.result? ⟨0, 0, 3⟩ = some (.text "y")) ∧
      ⟨0, 0, 2⟩ ∈ w.dirty ∧ ⟨0, 0, 1⟩ ∈ w.dirty ∧ ⟨0, 0, 3⟩ ∉ w.dirty := by
  refine (fun facts => ⟨facts, ?_⟩) (by cbv)
  obtain ⟨hf, hr, hd, hw, hf', hr'⟩ := facts
  obtain ⟨hstale, hclosed⟩ := dirty_iff_stale_and_closed .skip _
  have hup := hclosed _ (Std.ExtTreeSet.contains_iff_mem.1 hd)
  refine ⟨(hstale _ hf).2 hr, hup.2 _ (hw ▸ List.mem_singleton_self _), fun hmem => ?_⟩
  cases hr'.symm.trans ((hstale _ hf').1 hmem)

end Workbook

end Spreadsheet
