/-
What a calculation pass accounts for. Its targets are the dirty formulas.
Each of them gets one result: a fault if it is on a cycle or below a dirty
one, and else what its formula comes to. The report counts the targets by
these three cases, and the faults among the formulas that were evaluated
(`counts_runCells`); no other cell and nothing else in the workbook changes
(`CalculatedTo`, `SoundOK.calculatedTo`). Nothing is dirty then,
so a second pass finds no targets and does nothing (`calculate_of_clean`).
-/
import Spreadsheet.Proofs.Freshness

namespace Spreadsheet

open Relation

namespace Workbook

/-! ## What a pass is to do -/

/-- Whether a cell depends on a dirty formula that depends on itself. -/
def BelowDirtyCycle (w : Workbook) (c : CellAddress) : Prop :=
  ∃ d ∈ w.targets, TransGen w.DependsOn c d ∧ w.OnCycle d

/-- The targets of a pass that are evaluated: those neither on a cycle nor below a dirty one. -/
def Evaluates (w : Workbook) (c : CellAddress) : Prop :=
  c ∈ w.targets ∧ ¬ w.OnCycle c ∧ ¬ w.BelowDirtyCycle c

/-- What a pass makes of a workbook, and what it reports. -/
structure CalculatedTo (w u : Workbook) (report : Report) : Prop where
  /-- Nothing is dirty any more. -/
  clean : u.dirty = ∅
  /-- A dirty formula had no result; it has got one, which tells what the formula depends on. -/
  targets : ∀ c ∈ w.targets, ∃ f r, w.store.get? c = some (.formula f none) ∧
    u.store.get? c = some (.formula f (some r)) ∧
    (w.OnCycle c → r = .error .circularReference) ∧
    (¬ w.OnCycle c → w.BelowDirtyCycle c → r = .error .refUnavailable) ∧
    (¬ w.OnCycle c → ¬ w.BelowDirtyCycle c → r = u.outcome f)
  /-- All other cells keep their contents, and formulas their results. -/
  others : ∀ c, c ∉ w.targets → u.store.get? c = w.store.get? c
  /-- Only results change, and what is dirty. -/
  frame : u.store.sheets = w.store.sheets ∧ u.graph = w.graph ∧ u.watch = w.watch ∧
    u.names = w.names ∧ u.nameUsers = w.nameUsers ∧ u.policy = w.policy
  dirtyCells : report.dirtyCells = w.dirty.size
  /-- Every target is counted once. -/
  total : report.evaluated + report.cycleMembers + report.cycleDependents = w.targets.size
  cycleMembers : {c | c ∈ w.targets ∧ w.OnCycle c}.encard = report.cycleMembers
  cycleDependents :
    {c | c ∈ w.targets ∧ ¬ w.OnCycle c ∧ w.BelowDirtyCycle c}.encard = report.cycleDependents
  evaluated : {c | w.Evaluates c}.encard = report.evaluated
  errorResults : {c | w.Evaluates c ∧ ∃ fault, u.store.result? c = some (.error fault)}.encard =
    report.errorResults

/-! ## Counting -/

/-- Whether the formula of a cell has a fault for its result. -/
def isFaulty (s : Store) (c : CellAddress) : Bool :=
  (s.result? c).any CellResult.isError

theorem isFaulty_iff {s : Store} {c : CellAddress} :
    isFaulty s c = true ↔ ∃ fault, s.result? c = some (.error fault) := by
  unfold isFaulty
  cases s.result? c with
  | none => simp
  | some r => cases r <;> simp [CellResult.isError]

theorem formula?_calculateCell (w : Workbook) (p : Progress) (c d : CellAddress) :
    (w.calculateCell p d).store.formula? c = p.store.formula? c := by
  by_cases hcd : c = d
  · subst hcd
    cases hf : p.store.formula? c with
    | none => simp only [calculateCell, hf]
    | some f => exact Store.formula?_eq_some.2 ⟨_, get?_calculateCell_self w hf⟩
  · exact Store.formula?_congr (get?_calculateCell_other w p hcd)

theorem counts_calculateCell (w : Workbook) {p : Progress} {c : CellAddress} {f : Formula}
    (hf : p.store.formula? c = some f) :
    (w.calculateCell p c).evaluated = p.evaluated + 1 ∧ (w.calculateCell p c).errors =
      p.errors + if isFaulty (w.calculateCell p c).store c then 1 else 0 := by
  have hresult := Store.result?_of_get? (get?_calculateCell_self w hf)
  rw [isFaulty, hresult]
  simp [calculateCell, hf]

/-- **The counts of a run** over formulas, each listed once, are their number and the number of
faults among their results afterwards. -/
theorem counts_runCells (w : Workbook) : ∀ {cells : List CellAddress} (p : Progress),
    cells.Nodup → (∀ c ∈ cells, p.store.isFormula c = true) →
      (w.runCells p cells).evaluated = p.evaluated + cells.length ∧ (w.runCells p cells).errors =
        p.errors + cells.countP (isFaulty (w.runCells p cells).store)
  | [], p, _, _ => ⟨rfl, rfl⟩
  | c :: cells, p, hnodup, hformula => by
    obtain ⟨hc, hnodup⟩ := List.nodup_cons.1 hnodup
    obtain ⟨hf, hformula⟩ := List.forall_mem_cons.1 hformula
    obtain ⟨f, hf⟩ := Store.isFormula_iff.1 hf
    have hrun : w.runCells p (c :: cells) = w.runCells (w.calculateCell p c) cells := rfl
    obtain ⟨hevaluated, herrors⟩ := counts_calculateCell w hf
    obtain ⟨ihevaluated, iherrors⟩ := counts_runCells w (w.calculateCell p c) hnodup fun d hd => by
      obtain ⟨g, hg⟩ := Store.isFormula_iff.1 (hformula d hd)
      exact Store.isFormula_iff.2 ⟨g, (formula?_calculateCell w p d c).trans hg⟩
    -- the cell is not listed again, so its result is the one it has got here
    have hfaulty : isFaulty (w.runCells p (c :: cells)).store c =
        isFaulty (w.calculateCell p c).store c := by
      rw [hrun, isFaulty, Store.result?_congr (get?_runCells_other w _ hc), isFaulty]
    rw [List.countP_cons, hfaulty, hrun, ihevaluated, iherrors, hevaluated, herrors,
      List.length_cons]
    omega

/-! ## The targets by their cases -/

theorem mem_order_iff {w : Workbook} (hw : w.WiredOK) (hdirty : w.DirtyOK) {c : CellAddress} :
    c ∈ w.plan.order ↔ w.Evaluates c := by
  constructor
  · intro h
    have hc := mem_plan.2 (.inl h)
    obtain ⟨hm, hd⟩ := not_cyclic_of_order h
    have hself : ¬ w.OnCycle c := fun hs => hm ((mem_cycleMembers_iff hw hdirty).2 ⟨hc, hs⟩)
    exact ⟨hc, hself, fun hb => hd ((mem_cycleDependents_iff hw hdirty).2 ⟨hself, hb⟩)⟩
  · rintro ⟨hc, hself, hbelow⟩
    rcases mem_plan.1 hc with h | h | h
    · exact h
    · exact absurd ((mem_cycleMembers_iff hw hdirty).1 h).2 hself
    · exact absurd ((mem_cycleDependents_iff hw hdirty).1 h).2 hbelow

theorem counts_calculate (w : Workbook) : w.calculate.2.evaluated = w.plan.order.length ∧
    w.calculate.2.errorResults = w.plan.order.countP (isFaulty w.calculate.1.store) := by
  have hformula : ∀ c ∈ w.plan.order, w.marked.isFormula c = true := by
    intro c hc
    obtain ⟨hm, hd⟩ := not_cyclic_of_order hc
    obtain ⟨f, hf⟩ := Store.isFormula_iff.1 (mem_targets.1 (mem_plan.2 (.inl hc))).2
    have hget := get?_marked_of_clear hm hd
    exact Store.isFormula_iff.2 ⟨f, (Store.formula?_congr hget).trans hf⟩
  obtain ⟨hevaluated, herrors⟩ := counts_runCells w ⟨w.marked, 0, 0⟩
    (List.nodup_append.1 w.plan_parts_nodup).1 hformula
  exact ⟨hevaluated.trans (Nat.zero_add _), herrors.trans (Nat.zero_add _)⟩

/-- **A target gets the one result that its case asks for.** -/
theorem get?_calculate_target {w : Workbook} (h : w.SoundOK) {c : CellAddress}
    (hc : c ∈ w.targets) : ∃ f r, w.store.get? c = some (.formula f none) ∧
      w.calculate.1.store.get? c = some (.formula f (some r)) ∧
      (w.OnCycle c → r = .error .circularReference) ∧
      (¬ w.OnCycle c → w.BelowDirtyCycle c → r = .error .refUnavailable) ∧
      (¬ w.OnCycle c → ¬ w.BelowDirtyCycle c → r = w.calculate.1.outcome f) := by
  obtain ⟨hdirty, hformula⟩ := mem_targets.1 hc
  obtain ⟨f, hf⟩ := Store.isFormula_iff.1 hformula
  have hstale : w.store.get? c = some (.formula f none) := by
    rw [Store.get?_of_formula? hf, (h.dirty.stale c f hf).1 hdirty]
  have hafter := Store.get?_of_formula? ((formula?_calculate w c).trans hf)
  rcases mem_plan.1 hc with ho | hm | hd
  · obtain ⟨-, hself, hbelow⟩ := (mem_order_iff h.wired h.dirty).1 ho
    rw [result?_calculate_order h.wired hf ho] at hafter
    exact ⟨f, _, hstale, hafter, fun hs => absurd hs hself, fun _ hb => absurd hb hbelow,
      fun _ _ => rfl⟩
  · have hself := ((mem_cycleMembers_iff h.wired h.dirty).1 hm).2
    exact ⟨f, _, hstale, get?_calculate_member hf hm, fun _ => rfl, fun hn => absurd hself hn,
      fun hn => absurd hself hn⟩
  · obtain ⟨hself, hbelow⟩ := (mem_cycleDependents_iff h.wired h.dirty).1 hd
    exact ⟨f, _, hstale, get?_calculate_dependent hf hd, fun hs => absurd hs hself,
      fun _ _ => rfl, fun _ hn => absurd hbelow hn⟩

theorem SoundOK.calculatedTo {w : Workbook} (h : w.SoundOK) :
    w.CalculatedTo w.calculate.1 w.calculate.2 := by
  obtain ⟨horder, hcyclic, -⟩ := List.nodup_append.1 w.plan_parts_nodup
  obtain ⟨hmembers, hdependents, -⟩ := List.nodup_append.1 hcyclic
  obtain ⟨hevaluated, herrors⟩ := w.counts_calculate
  exact
    { clean := rfl
      targets := fun c hc => get?_calculate_target h hc
      others := fun c hc => get?_calculate_other hc
      frame := ⟨w.sheets_calculate, rfl, rfl, rfl, rfl, rfl⟩
      dirtyCells := rfl
      total := by
        have hlength := w.plan_sorts.parts.length_eq
        rw [List.length_append, List.length_append, Std.ExtTreeSet.length_toList] at hlength
        rw [hevaluated, ← hlength]
        rfl
      cycleMembers := encard_eq_length hmembers fun c => mem_cycleMembers_iff h.wired h.dirty
      cycleDependents := by
        refine encard_eq_length hdependents fun c => ?_
        rw [mem_cycleDependents_iff h.wired h.dirty]
        refine ⟨fun hc => ⟨?_, hc⟩, fun hc => hc.2⟩
        exact mem_plan.2 (.inr (.inr ((mem_cycleDependents_iff h.wired h.dirty).2 hc)))
      evaluated := by
        rw [hevaluated]
        exact encard_eq_length horder fun c => mem_order_iff h.wired h.dirty
      errorResults := by
        rw [herrors, List.countP_eq_length_filter]
        refine encard_eq_length (horder.filter _) fun c => ?_
        rw [List.mem_filter, mem_order_iff h.wired h.dirty, isFaulty_iff]
        rfl }

/-! ## A second pass -/

/-- **Where nothing is dirty a pass does nothing.** -/
theorem calculate_of_clean {w : Workbook} (h : w.dirty = ∅) :
    w.calculate = (w, ⟨0, 0, 0, 0, 0, 0⟩) := by
  have hnone : ∀ c, c ∉ w.targets := by
    intro c hc
    have hdirty := (mem_targets.1 hc).1
    simp [h] at hdirty
  have horder : w.plan.order = [] :=
    List.eq_nil_iff_forall_not_mem.2 fun c hc => hnone c (mem_plan.2 (.inl hc))
  have hmembers : w.plan.cycleMembers = [] :=
    List.eq_nil_iff_forall_not_mem.2 fun c hc => hnone c (mem_plan.2 (.inr (.inl hc)))
  have hdependents : w.plan.cycleDependents = [] :=
    List.eq_nil_iff_forall_not_mem.2 fun c hc => hnone c (mem_plan.2 (.inr (.inr hc)))
  simp only [calculate, runPlan, putFaults, horder, hmembers, hdependents, List.foldl_nil, h,
    List.length_nil, Std.ExtTreeSet.size_empty]
  rw [← h]

/-- **A pass accounts for its targets and touches nothing else, after any operations.** However a
workbook came about, a pass leaves nothing dirty. Each formula that was dirty had no result and has
one: the fault of cycles if the formula depends on itself, the fault of unavailable results if it
does not but depends on a dirty one that does, and otherwise what it comes to against the results of
the pass. The report counts the formulas in each of these cases, which are all that were dirty, and
those evaluated that came to a fault. Any other cell keeps its content and its result; sheets, edges,
watched rectangles, names and policy stay. A pass right after it counts nothing and changes nothing. -/
theorem calculate_accounts_for_targets (policy : TextPolicy) (operations : List Operation) :
    let w := (Workbook.empty policy).run operations
    let u := w.calculate.1
    w.CalculatedTo u w.calculate.2 ∧ u.calculate.1 = u ∧ u.calculate.2.dirtyCells = 0 ∧
      u.calculate.2.evaluated = 0 ∧ u.calculate.2.cycleMembers = 0 ∧
      u.calculate.2.cycleDependents = 0 ∧ u.calculate.2.errorResults = 0 := by
  intro w u
  have h : w.SoundOK := Reachable.soundOK ⟨policy, operations, rfl⟩
  have hagain : u.calculate = (u, ⟨0, 0, 0, 0, 0, 0⟩) := calculate_of_clean rfl
  rw [hagain]
  exact ⟨h.calculatedTo, rfl, rfl, rfl, rfl, rfl, rfl⟩

/-- Two formulas on a cycle, one below it, one that comes to a text, one to a fault, and one that has
been calculated before. -/
theorem calculate_accounts_for_targets_loop :
    let w := (Workbook.empty .skip).run [.appendSheet "S", .setCell ⟨0, 0, 5⟩ (.formula "=H1"),
      .calculate, .setCell ⟨0, 0, 0⟩ (.formula "=B1"), .setCell ⟨0, 0, 1⟩ (.formula "=A1"),
      .setCell ⟨0, 0, 2⟩ (.formula "=A1"), .setCell ⟨0, 0, 3⟩ (.formula "=foo"),
      .setCell ⟨0, 0, 4⟩ (.formula "=G1"), .setCell ⟨0, 0, 6⟩ (.text "a")]
    let u := w.calculate.1
    (w.dirty.toList = [⟨0, 0, 0⟩, ⟨0, 0, 1⟩, ⟨0, 0, 2⟩, ⟨0, 0, 3⟩, ⟨0, 0, 4⟩, ⟨0, 0, 6⟩] ∧
        w.calculate.2 = ⟨6, 2, 2, 1, 1, 0⟩ ∧ w.targets.contains ⟨0, 0, 5⟩ = false) ∧
      {c | c ∈ w.targets ∧ w.OnCycle c}.encard = 2 ∧ {c | w.Evaluates c}.encard = 2 ∧
      u.store.get? ⟨0, 0, 5⟩ = w.store.get? ⟨0, 0, 5⟩ ∧ u.calculate.1 = u := by
  refine (fun facts => ⟨facts, ?_⟩) (by cbv)
  obtain ⟨-, hreport, hclean⟩ := facts
  obtain ⟨hpass, hagain, -⟩ := calculate_accounts_for_targets .skip _
  have hother := fun h => Bool.eq_false_iff.1 hclean (Std.ExtTreeSet.contains_iff_mem.2 h)
  rw [hreport] at hpass
  exact ⟨hpass.cycleMembers, hpass.evaluated, hpass.others _ hother, hagain⟩

end Workbook

end Spreadsheet
