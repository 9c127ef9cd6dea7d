/-
What a calculation pass does to each cell. A cell that is no target keeps
its content. A target keeps its formula and gets one result: the fault its
part of the plan stands for, or, in order, what its formula comes to
against the results before it.
-/
import Spreadsheet.Workbook.Recalc
import Spreadsheet.Proofs.Edited
import Spreadsheet.Proofs.Plan

namespace Spreadsheet

namespace Workbook

/-! ## The cells in order -/

theorem get?_calculateCell_other (w : Workbook) (p : Progress) {c d : CellAddress} (h : c ≠ d) :
    (w.calculateCell p d).store.get? c = p.store.get? c := by
  rw [calculateCell]
  split
  · rfl
  · simp only [Store.setResult, Store.get?_putResult, if_neg h]

theorem get?_calculateCell_self (w : Workbook) {p : Progress} {c : CellAddress} {f : Formula}
    (h : p.store.formula? c = some f) : (w.calculateCell p c).store.get? c =
      some (.formula f (some ((p.store.context w.names w.policy).result f.tree))) := by
  simp only [calculateCell, h, Store.setResult, Store.get?_putResult, if_true,
    Store.get?_of_formula? h]
  rfl

/-- The progress after some cells in order. -/
def runCells (w : Workbook) (p : Progress) (cells : List CellAddress) : Progress :=
  cells.foldl w.calculateCell p

theorem get?_runCells_other (w : Workbook) {c : CellAddress} :
    ∀ {cells : List CellAddress} (p : Progress), c ∉ cells →
      (w.runCells p cells).store.get? c = p.store.get? c
  | [], _, _ => rfl
  | d :: cells, p, h => by
    simp only [List.mem_cons, not_or] at h
    rw [runCells, List.foldl_cons]
    exact (get?_runCells_other w _ h.2).trans (get?_calculateCell_other w p h.1)

theorem runCells_append (w : Workbook) (p : Progress) (first second : List CellAddress) :
    w.runCells p (first ++ second) = w.runCells (w.runCells p first) second :=
  List.foldl_append

theorem sheets_calculateCell (w : Workbook) (p : Progress) (c : CellAddress) :
    (w.calculateCell p c).store.sheets = p.store.sheets := by
  rw [calculateCell]
  split
  · rfl
  · exact Store.sheets_putResult _ _ _

theorem sheets_runCells (w : Workbook) : ∀ (cells : List CellAddress) (p : Progress),
    (w.runCells p cells).store.sheets = p.store.sheets
  | [], _ => rfl
  | c :: cells, p => (sheets_runCells w cells _).trans (sheets_calculateCell w p c)

/-- A cell listed once gets what its formula comes to after the cells before it. -/
theorem get?_runCells_mid (w : Workbook) {p : Progress} {c : CellAddress} {f : Formula}
    {pre post : List CellAddress} (hf : p.store.formula? c = some f) (hpre : c ∉ pre)
    (hpost : c ∉ post) : (w.runCells p (pre ++ c :: post)).store.get? c =
      some (.formula f (some (((w.runCells p pre).store.context w.names w.policy).result f.tree))) := by
  have hfp : (w.runCells p pre).store.formula? c = some f := by
    rw [Store.formula?_congr (get?_runCells_other w p hpre), hf]
  rw [runCells_append, runCells, List.foldl_cons]
  exact (get?_runCells_other w _ hpost).trans (get?_calculateCell_self w hfp)

/-! ## The plan of a pass -/

theorem mem_targets {w : Workbook} {c : CellAddress} :
    c ∈ w.targets ↔ c ∈ w.dirty ∧ w.store.isFormula c = true := mem_set_filter

/-- One target of a pass depends on another. -/
def TargetDependsOn (w : Workbook) : CellAddress → CellAddress → Prop :=
  w.graph.TargetDependsOn (fun cell => w.watch.watchedAmong cell w.targets) w.targets

theorem plan_sorts (w : Workbook) : w.plan.Sorts w.targets w.TargetDependsOn :=
  Links.plan_sorts _ _ _

theorem mem_plan {w : Workbook} {c : CellAddress} : c ∈ w.targets ↔
    c ∈ w.plan.order ∨ c ∈ w.plan.cycleMembers ∨ c ∈ w.plan.cycleDependents := by
  rw [← Std.ExtTreeSet.mem_toList, ← w.plan_sorts.parts.mem_iff, List.mem_append, List.mem_append,
    or_assoc]

theorem plan_parts_nodup (w : Workbook) :
    (w.plan.order ++ (w.plan.cycleMembers ++ w.plan.cycleDependents)).Nodup := by
  rw [← List.append_assoc]
  exact w.plan_sorts.parts.nodup_iff.2 nodup_toList

theorem not_cyclic_of_order {w : Workbook} {c : CellAddress} (h : c ∈ w.plan.order) :
    c ∉ w.plan.cycleMembers ∧ c ∉ w.plan.cycleDependents := by
  have hn := (List.nodup_append.1 w.plan_parts_nodup).2.2 c h
  constructor
  · exact fun hc => hn c (List.mem_append_left _ hc) rfl
  · exact fun hc => hn c (List.mem_append_right _ hc) rfl

theorem not_dependent_of_member {w : Workbook} {c : CellAddress} (h : c ∈ w.plan.cycleMembers) :
    c ∉ w.plan.cycleDependents := fun hd =>
  (List.nodup_append.1 (List.nodup_append.1 w.plan_parts_nodup).2.1).2.2 c h c hd rfl

/-! ## The whole pass -/

/-- The store with the faults of cycles put in, before any formula is evaluated. -/
def marked (w : Workbook) : Store :=
  putFaults .refUnavailable w.plan.cycleDependents
    (putFaults .circularReference w.plan.cycleMembers w.store)

theorem store_calculate (w : Workbook) :
    w.calculate.1.store = (w.runCells ⟨w.marked, 0, 0⟩ w.plan.order).store := rfl

theorem sheets_calculate (w : Workbook) : w.calculate.1.store.sheets = w.store.sheets := by
  rw [store_calculate, sheets_runCells]
  exact (Store.sheets_putResults _ _ _).trans (Store.sheets_putResults _ _ _)

theorem get?_marked (w : Workbook) (c : CellAddress) : w.marked.get? c =
    if c ∈ w.plan.cycleDependents then
      (w.store.get? c).map (CellContent.withResult (some (.error .refUnavailable)))
    else if c ∈ w.plan.cycleMembers then
      (w.store.get? c).map (CellContent.withResult (some (.error .circularReference)))
    else w.store.get? c := by
  have hfaults : ∀ fault cells s, putFaults fault cells s =
      s.putResults (some (.error fault)) cells := fun _ _ _ => rfl
  rw [marked, hfaults, hfaults, Store.get?_putResults, Store.get?_putResults]
  by_cases hd : c ∈ w.plan.cycleDependents
  · have hm : c ∉ w.plan.cycleMembers := fun hm => not_dependent_of_member hm hd
    rw [if_pos hd, if_pos hd, if_neg hm]
  · rw [if_neg hd, if_neg hd]

theorem get?_marked_of_clear {w : Workbook} {c : CellAddress} (hm : c ∉ w.plan.cycleMembers)
    (hd : c ∉ w.plan.cycleDependents) : w.marked.get? c = w.store.get? c := by
  rw [get?_marked, if_neg hd, if_neg hm]

/-- **A cell that is no target keeps its content.** -/
theorem get?_calculate_other {w : Workbook} {c : CellAddress} (h : c ∉ w.targets) :
    w.calculate.1.store.get? c = w.store.get? c := by
  rw [mem_plan, not_or, not_or] at h
  rw [store_calculate, get?_runCells_other w _ h.1]
  exact get?_marked_of_clear h.2.1 h.2.2

theorem get?_calculate_member {w : Workbook} {c : CellAddress} {f : Formula}
    (hf : w.store.formula? c = some f) (h : c ∈ w.plan.cycleMembers) :
    w.calculate.1.store.get? c = some (.formula f (some (.error .circularReference))) := by
  have ho : c ∉ w.plan.order := fun ho => (not_cyclic_of_order ho).1 h
  rw [store_calculate, get?_runCells_other w _ ho]
  change w.marked.get? c = _
  rw [get?_marked, if_neg (not_dependent_of_member h), if_pos h, Store.get?_of_formula? hf]
  rfl

theorem get?_calculate_dependent {w : Workbook} {c : CellAddress} {f : Formula}
    (hf : w.store.formula? c = some f) (h : c ∈ w.plan.cycleDependents) :
    w.calculate.1.store.get? c = some (.formula f (some (.error .refUnavailable))) := by
  have ho : c ∉ w.plan.order := fun ho => (not_cyclic_of_order ho).2 h
  rw [store_calculate, get?_runCells_other w _ ho]
  change w.marked.get? c = _
  rw [get?_marked, if_pos h, Store.get?_of_formula? hf]
  rfl

/-- The store in which a cell in order is evaluated, when the given cells stand before it. -/
def storeAfter (w : Workbook) (pre : List CellAddress) : Store :=
  (w.runCells ⟨w.marked, 0, 0⟩ pre).store

theorem get?_calculate_order {w : Workbook} {c : CellAddress} {f : Formula}
    {pre post : List CellAddress} (hf : w.store.formula? c = some f)
    (h : w.plan.order = pre ++ c :: post) : w.calculate.1.store.get? c =
      some (.formula f (some (((w.storeAfter pre).context w.names w.policy).result f.tree))) := by
  have hc : c ∈ w.plan.order := by simp [h]
  have hn := (List.nodup_append.1 w.plan_parts_nodup).1
  rw [h, List.nodup_append, List.nodup_cons] at hn
  have hm := get?_marked_of_clear (not_cyclic_of_order hc).1 (not_cyclic_of_order hc).2
  rw [store_calculate, h]
  refine get?_runCells_mid w ?_ (fun hp => hn.2.2 c hp c (by simp) rfl) hn.2.1.1
  change w.marked.formula? c = _
  rw [Store.formula?_congr hm, hf]

theorem formula?_calculate (w : Workbook) (c : CellAddress) :
    w.calculate.1.store.formula? c = w.store.formula? c := by
  by_cases ht : c ∈ w.targets
  · obtain ⟨f, hf⟩ := Store.isFormula_iff.1 (mem_targets.1 ht).2
    rw [hf, Store.formula?_eq_some]
    rcases mem_plan.1 ht with h | h | h
    · obtain ⟨pre, post, h⟩ := List.append_of_mem h
      exact ⟨_, get?_calculate_order hf h⟩
    · exact ⟨_, get?_calculate_member hf h⟩
    · exact ⟨_, get?_calculate_dependent hf h⟩
  · exact Store.formula?_congr (get?_calculate_other ht)

theorem result?_calculate_target {w : Workbook} {c : CellAddress} (h : c ∈ w.targets) :
    w.calculate.1.store.result? c ≠ none := by
  obtain ⟨f, hf⟩ := Store.isFormula_iff.1 (mem_targets.1 h).2
  rcases mem_plan.1 h with h | h | h
  · obtain ⟨pre, post, h⟩ := List.append_of_mem h
    rw [Store.result?_of_get? (get?_calculate_order hf h)]
    simp
  · rw [Store.result?_of_get? (get?_calculate_member hf h)]
    simp
  · rw [Store.result?_of_get? (get?_calculate_dependent hf h)]
    simp

end Workbook

end Spreadsheet
