/-
What the results of clean formulas are. A clean formula on a cycle has the
fault of cycles; any other has what it comes to against the results of the
workbook, or, if it depends on a cycle, possibly the fault of unavailable
results (`Workbook.RightAt`). Operations that leave a formula clean leave
alone all that it reads (`Kept`), and a pass evaluates each formula after
all that it reads (`Fresh.calculate`), so this holds in every workbook
(`Reachable.soundOK`, `clean_formulas_are_fresh`). It follows that a fault
shows in every clean formula that depends on it (`faults_are_not_masked`).
-/
import Spreadsheet.Proofs.Faults
import Spreadsheet.Proofs.Watching
import Spreadsheet.Proofs.Wiring

namespace Spreadsheet

open Relation

theorem NameTable.AgreeOn.reads_iff {s t : NameTable} {f : Formula} (h : s.AgreeOn t f.names)
    {c : CellAddress} : s.Reads f c ↔ t.Reads f c := by
  rw [Reads, h.references_eq, Reads]

namespace Workbook

/-- Whether a cell depends on itself. -/
def OnCycle (w : Workbook) (c : CellAddress) : Prop := TransGen w.DependsOn c c

/-- Whether a cell depends on one that depends on itself. -/
def DependsOnCycle (w : Workbook) (c : CellAddress) : Prop :=
  ∃ d, TransGen w.DependsOn c d ∧ w.OnCycle d

/-- What a formula comes to against the results of a workbook. -/
def outcome (w : Workbook) (f : Formula) : CellResult :=
  (w.store.context w.names w.policy).result f.tree

/-- A formula has the result it should have: the fault of cycles on a cycle; beside cycles what it
comes to, or the fault of unavailable results if it depends on a cycle. -/
structure RightAt (w : Workbook) (c : CellAddress) (f : Formula) : Prop where
  cycle : w.OnCycle c → w.store.result? c = some (.error .circularReference)
  beside : ¬ w.OnCycle c → w.store.result? c = some (w.outcome f) ∨
    w.DependsOnCycle c ∧ w.store.result? c = some (.error .refUnavailable)

/-- Every formula that is not dirty has the result it should have. -/
def Fresh (w : Workbook) : Prop :=
  ∀ c f, w.store.formula? c = some f → c ∉ w.dirty → w.RightAt c f

/-- The invariants of workbooks together. -/
structure SoundOK (w : Workbook) : Prop where
  dirty : w.DirtyOK
  wired : w.WiredOK
  fresh : w.Fresh

theorem clean_of_dependsOn {w : Workbook} (hd : w.DirtyOK) (hw : w.WiredOK) {c input : CellAddress}
    (hc : c ∉ w.dirty) (h : w.DependsOn c input) : input ∉ w.dirty := fun hi =>
  hc (hd.closed input hi c (hw.tied_iff.2 h))

/-! ## What a change keeps -/

/-- A cell that a change has left alone: it was clean, its content is the same, and the names that
its formula reaches are defined as before. -/
structure Kept (w u : Workbook) (c : CellAddress) : Prop where
  clean : c ∉ w.dirty
  get? : u.store.get? c = w.store.get? c
  agree : ∀ f, w.store.formula? c = some f → w.names.AgreeOn u.names f.names

theorem Kept.dependsOn_iff {w u : Workbook} {c input : CellAddress} (h : w.Kept u c) :
    u.DependsOn c input ↔ w.DependsOn c input := by
  rw [DependsOn, Store.formula?_congr h.get?, DependsOn]
  exact exists_congr fun f => and_congr_right fun hf => (h.agree f hf).reads_iff.symm

/-- **What is left alone stays right** if all that it depends on is left alone with it. -/
theorem RightAt.kept {w u : Workbook} (hp : u.policy = w.policy) {P : CellAddress → Prop}
    (hkept : ∀ c, P c → w.Kept u c) (hstay : ∀ c input, P c → u.DependsOn c input → P input)
    {c : CellAddress} {f : Formula} (hc : P c) (hf : w.store.formula? c = some f)
    (h : w.RightAt c f) : u.RightAt c f := by
  have hpath : ∀ {a b}, P a → (TransGen u.DependsOn a b ↔ TransGen w.DependsOn a b) := fun ha =>
    transGen_congr_on (fun a b ha => (hkept a ha).dependsOn_iff) hstay ha
  have hcycle : u.OnCycle c ↔ w.OnCycle c := hpath hc
  have hresult : u.store.result? c = w.store.result? c := Store.result?_congr (hkept c hc).get?
  refine ⟨fun hu => ?_, fun hu => ?_⟩
  · rw [hresult]
    exact h.cycle (hcycle.1 hu)
  · rw [hresult]
    have houtcome : u.outcome f = w.outcome f := by
      rw [outcome, outcome, hp]
      refine (Store.result_congr ((hkept c hc).agree f hf) fun d hd => ?_).symm
      have hdep : u.DependsOn c d := (hkept c hc).dependsOn_iff.2 ⟨f, hf, hd⟩
      exact ((hkept d (hstay c d hc hdep)).get?).symm
    rw [houtcome]
    refine (h.beside (fun hw => hu (hcycle.2 hw))).imp_right fun ⟨⟨d, hcd, hdd⟩, hr⟩ => ⟨⟨d, ?_, ?_⟩, hr⟩
    · exact (hpath hc).2 hcd
    · exact (hpath (transGen_stays hstay hc ((hpath hc).2 hcd))).2 hdd

/-- A change that leaves alone whatever is clean after it. -/
structure Spares (w u : Workbook) : Prop where
  policy : u.policy = w.policy
  kept : ∀ c, c ∉ u.dirty → w.Kept u c

/-- **A change that leaves alone whatever is clean after it keeps results right.** -/
theorem Fresh.spares {w u : Workbook} (h : w.Fresh) (hd : u.DirtyOK) (hw : u.WiredOK)
    (hs : w.Spares u) : u.Fresh := by
  intro c f hf hc
  have hk := hs.kept c hc
  have hfw : w.store.formula? c = some f := Store.formula?_congr hk.get? ▸ hf
  exact (h c f hfw hk.clean).kept hs.policy hs.kept
    (fun a b ha hab => clean_of_dependsOn hd hw ha hab) hc hfw

theorem Edited.spares {w u : Workbook} {x : CellAddress} {content : Option CellContent}
    {d : Dependencies} {usesNames : Bool} (he : w.Edited u x content d usesNames) :
    w.Spares (u.markDirty x) := by
  refine ⟨he.policy, fun c hc => ?_⟩
  obtain ⟨hclean, hget⟩ := markDirty_clean hc
  have hcx : c ≠ x := by
    rintro rfl
    exact hc (self_mem_dirty_markDirty u c)
  refine ⟨he.dirty ▸ hclean, hget.trans (he.get?_other c hcx), fun f _ => ?_⟩
  rw [names_markDirty, he.names]
  exact .refl _ _

/-! ## Steps other than calculation -/

theorem Fresh.empty (policy : TextPolicy) : (Workbook.empty policy).Fresh := by
  intro c f hf
  obtain ⟨r, hr⟩ := Store.formula?_eq_some.1 hf
  simp [Workbook.empty, Store.empty, Store.get?] at hr

theorem spares_bindName {w : Workbook} (hw : w.WiredOK) (name : String) (g : Formula) :
    w.Spares (w.bindName name g) := by
  have hr := w.bindName_rewired name g
  refine ⟨hr.policy, fun c hc => ?_⟩
  obtain ⟨hclean, hget, hcells⟩ := hr.clean c hc
  refine ⟨hclean, hget, fun f hf => ?_⟩
  have hnames : (w.bindName name g).names = w.names.set name g := hr.names
  rw [hnames]
  refine (agreeOn_of_not_reaching hw hf fun hm => ?_).symm
  have hnone : w.store.formula? c = none := hcells hm
  simp [hf] at hnone

theorem mem_dirty_markAll {cells : List CellAddress} {c : CellAddress} : ∀ {w : Workbook},
    c ∈ cells ∨ c ∈ w.dirty → c ∈ (cells.foldl markDirty w).dirty := by
  induction cells with
  | nil => exact fun h => h.resolve_left List.not_mem_nil
  | cons x cells ih =>
    intro w h
    refine ih ?_
    rcases h with h | h
    · rcases List.mem_cons.1 h with rfl | h
      · exact .inr (self_mem_dirty_markDirty w c)
      · exact .inl h
    · exact .inr (mem_dirty_markDirty.2 (.inr h))

theorem formula?_markAll (c : CellAddress) : ∀ (cells : List CellAddress) (w : Workbook),
    (cells.foldl markDirty w).store.formula? c = w.store.formula? c
  | [], _ => rfl
  | x :: cells, w => (formula?_markAll c cells (w.markDirty x)).trans (formula?_markDirty w x c)

theorem mem_formulaCells {w : Workbook} {c : CellAddress} :
    c ∈ w.formulaCells ↔ w.store.isFormula c = true := by
  rw [formulaCells, List.mem_filter, Std.ExtTreeMap.mem_keys]
  refine and_iff_right_of_imp fun h => ?_
  obtain ⟨f, hf⟩ := Store.isFormula_iff.1 h
  obtain ⟨r, hr⟩ := Store.formula?_eq_some.1 hf
  exact Std.ExtTreeMap.mem_iff_isSome_getElem?.2 (by rw [Store.get?] at hr; rw [hr]; rfl)

theorem mem_dirty_repolicy {w : Workbook} {policy : TextPolicy} {c : CellAddress}
    (hc : w.store.isFormula c = true) :
    c ∈ (w.formulaCells.foldl markDirty { w with policy := policy }).dirty :=
  mem_dirty_markAll (.inl (mem_formulaCells.2 hc))

/-! ## Calculation -/

theorem dependsOn_calculate (w : Workbook) : w.calculate.1.DependsOn = w.DependsOn := by
  funext c input
  rw [DependsOn, formula?_calculate]
  rfl

theorem targetDependsOn_iff {w : Workbook} (hw : w.WiredOK) {c d : CellAddress} :
    w.TargetDependsOn c d ↔ c ∈ w.targets ∧ d ∈ w.targets ∧ w.DependsOn c d := by
  rw [TargetDependsOn, Links.TargetDependsOn]
  refine and_congr_right fun _ => and_congr_right fun hd => ?_
  rw [← hw.tied_iff, Tied, RangeWatch.mem_watchedAmong, and_iff_right hd]

/-- **A path of dependencies that ends at a target is a path among the targets**: what depends on a
dirty cell is dirty. -/
theorem transGen_targetDependsOn {w : Workbook} (hw : w.WiredOK) (hdirty : w.DirtyOK)
    {c d : CellAddress} (hd : d ∈ w.targets) :
    TransGen w.TargetDependsOn c d ↔ TransGen w.DependsOn c d := by
  constructor
  · exact TransGen.mono (fun _ _ h => ((targetDependsOn_iff hw).1 h).2.2) c d
  · intro h
    refine (transGen_to (fun a b hb hab => ?_) hd h).1
    obtain ⟨f, hf, -⟩ := id hab
    have ha : a ∈ w.targets := mem_targets.2
      ⟨hdirty.closed _ (mem_targets.1 hb).1 _ (hw.tied_iff.2 hab), Store.isFormula_iff.2 ⟨f, hf⟩⟩
    exact ⟨(targetDependsOn_iff hw).2 ⟨ha, hb, hab⟩, ha⟩

theorem mem_cycleMembers_iff {w : Workbook} (hw : w.WiredOK) (hdirty : w.DirtyOK) {c : CellAddress} :
    c ∈ w.plan.cycleMembers ↔ c ∈ w.targets ∧ w.OnCycle c := by
  constructor
  · intro h
    have hc := mem_plan.2 (.inr (.inl h))
    exact ⟨hc, (transGen_targetDependsOn hw hdirty hc).1 ((w.plan_sorts.mem_cycleMembers c).1 h)⟩
  · rintro ⟨hc, h⟩
    exact (w.plan_sorts.mem_cycleMembers c).2 ((transGen_targetDependsOn hw hdirty hc).2 h)

theorem mem_cycleDependents_iff {w : Workbook} (hw : w.WiredOK) (hdirty : w.DirtyOK)
    {c : CellAddress} : c ∈ w.plan.cycleDependents ↔
      ¬ w.OnCycle c ∧ ∃ d ∈ w.targets, TransGen w.DependsOn c d ∧ w.OnCycle d := by
  constructor
  · intro h
    have hc := mem_plan.2 (.inr (.inr h))
    obtain ⟨hself, d, hd, hcd⟩ := (w.plan_sorts.mem_cycleDependents c).1 h
    obtain ⟨hdt, hdd⟩ := (mem_cycleMembers_iff hw hdirty).1 hd
    refine ⟨fun hcc => hself ((transGen_targetDependsOn hw hdirty hc).2 hcc), d, hdt, ?_, hdd⟩
    exact (transGen_targetDependsOn hw hdirty hdt).1 hcd
  · rintro ⟨hself, d, hdt, hcd, hdd⟩
    have hcd := (transGen_targetDependsOn hw hdirty hdt).2 hcd
    refine (w.plan_sorts.mem_cycleDependents c).2 ⟨fun hcc => hself ?_, d, ?_, hcd⟩
    · obtain ⟨e, he, -⟩ := TransGen.head'_iff.1 hcc
      exact (transGen_targetDependsOn hw hdirty ((targetDependsOn_iff hw).1 he).1).1 hcc
    · exact (mem_cycleMembers_iff hw hdirty).2 ⟨hdt, hdd⟩

/-- What a formula in order reads is, when the formula is evaluated, what it is after the pass: it
is no target, or it has been evaluated before. -/
theorem get?_storeAfter {w : Workbook} (hw : w.WiredOK) {c d : CellAddress}
    {pre post : List CellAddress} (ho : w.plan.order = pre ++ c :: post) (h : w.DependsOn c d) :
    (w.storeAfter pre).get? d = w.calculate.1.store.get? d := by
  have hc : c ∈ w.targets := mem_plan.2 (.inl (by simp [ho]))
  have hnodup := (List.nodup_append.1 w.plan_parts_nodup).1
  rw [ho] at hnodup
  -- a target that is read comes earlier, and what comes earlier does not come again
  have hlater : d ∉ c :: post := by
    by_cases hd : d ∈ w.targets
    · have hpre := w.plan_sorts.ready pre c post ho d ((targetDependsOn_iff hw).2 ⟨hc, hd, h⟩)
      exact fun hm => (List.nodup_append.1 hnodup).2.2 d hpre d hm rfl
    · intro hm
      exact hd (mem_plan.2 (.inl (ho ▸ List.mem_append_right _ hm)))
  rw [store_calculate, ho, runCells_append, get?_runCells_other w _ hlater]
  rfl

/-- **A pass gives every formula in order what it comes to** against the results of the pass. -/
theorem result?_calculate_order {w : Workbook} (hw : w.WiredOK) {c : CellAddress} {f : Formula}
    (hf : w.store.formula? c = some f) (ho : c ∈ w.plan.order) :
    w.calculate.1.store.result? c = some (w.calculate.1.outcome f) := by
  obtain ⟨pre, post, ho⟩ := List.append_of_mem ho
  rw [Store.result?_of_get? (get?_calculate_order hf ho)]
  refine congrArg some (Store.result_congr (.refl _ _) fun d hd => ?_)
  exact get?_storeAfter hw ho ⟨f, hf, hd⟩

theorem Fresh.calculate {w : Workbook} (h : w.SoundOK) : w.calculate.1.Fresh := by
  intro c f hf _
  rw [formula?_calculate] at hf
  have hcycle : w.calculate.1.OnCycle c ↔ w.OnCycle c := by rw [OnCycle, dependsOn_calculate, OnCycle]
  have hbelow : w.calculate.1.DependsOnCycle c ↔ w.DependsOnCycle c := by
    simp only [DependsOnCycle, OnCycle, dependsOn_calculate]
  by_cases hc : c ∈ w.targets
  · rcases mem_plan.1 hc with ho | hm | hd
    · obtain ⟨hnm, hnd⟩ := not_cyclic_of_order ho
      have hself : ¬ w.OnCycle c := fun hs => hnm ((mem_cycleMembers_iff h.wired h.dirty).2 ⟨hc, hs⟩)
      exact ⟨fun hs => absurd (hcycle.1 hs) hself, fun _ => .inl (result?_calculate_order h.wired hf ho)⟩
    · have hself := ((mem_cycleMembers_iff h.wired h.dirty).1 hm).2
      exact ⟨fun _ => Store.result?_of_get? (get?_calculate_member hf hm),
        fun hn => absurd (hcycle.2 hself) hn⟩
    · obtain ⟨hself, d, -, hcd, hdd⟩ := (mem_cycleDependents_iff h.wired h.dirty).1 hd
      exact ⟨fun hs => absurd (hcycle.1 hs) hself, fun _ => .inr ⟨hbelow.2 ⟨d, hcd, hdd⟩,
        Store.result?_of_get? (get?_calculate_dependent hf hd)⟩⟩
  · -- a formula that is no target is clean, and so is all that it depends on
    have hclean : c ∉ w.dirty := fun hd =>
      hc (mem_targets.2 ⟨hd, Store.isFormula_iff.2 ⟨f, hf⟩⟩)
    have hright := h.fresh c f hf hclean
    refine RightAt.kept (w := w) (u := w.calculate.1) (P := (· ∉ w.dirty)) rfl
      (fun a ha => ⟨ha, ?_, fun _ _ => .refl _ _⟩) (fun a b ha hab => ?_) hclean hf hright
    · exact get?_calculate_other fun ht => ha (mem_targets.1 ht).1
    · rw [dependsOn_calculate] at hab
      exact clean_of_dependsOn h.dirty h.wired ha hab

/-! ## Every workbook -/

theorem SoundOK.step {w u : Workbook} (h : w.SoundOK) (hs : w.Step u) : u.SoundOK := by
  have hd := h.dirty.step hs
  have hw := h.wired.step hs
  refine ⟨hd, hw, ?_⟩
  cases hs with
  | stay => exact h.fresh
  | addSheet name =>
    exact h.fresh.spares hd hw ⟨rfl, fun _ hc => ⟨hc, rfl, fun _ _ => .refl _ _⟩⟩
  | place hp he => exact h.fresh.spares hd hw he.spares
  | @bind f name _ => exact h.fresh.spares hd hw (spares_bindName h.wired name f)
  | repolicy _ =>
    intro c f hf hc
    rw [formula?_markAll] at hf
    exact absurd (mem_dirty_repolicy (Store.isFormula_iff.2 ⟨f, hf⟩)) hc
  | calculate => exact .calculate h

theorem Reachable.soundOK {w : Workbook} (h : w.Reachable) : w.SoundOK :=
  h.step_induction (fun policy => ⟨.empty policy, .empty policy, .empty policy⟩)
    fun _ _ hw hs => hw.step hs

/-! ## Faults hand on -/

theorem SoundOK.error_of_dependsOn {w : Workbook} (h : w.SoundOK) {c d : CellAddress}
    {fault : Fault} (hc : c ∉ w.dirty) (hcd : w.DependsOn c d) (hd : w.store.value d = .error fault) :
    ∃ fault', w.store.result? c = some (.error fault') := by
  obtain ⟨f, hf, hread⟩ := hcd
  have hright := h.fresh c f hf hc
  by_cases hcycle : w.OnCycle c
  · exact ⟨_, hright.cycle hcycle⟩
  rcases hright.beside hcycle with hr | ⟨-, hr⟩
  · cases he : (w.store.context w.names w.policy).evaluate f.tree with
    | error fault' => exact ⟨fault', by rw [hr, outcome, Context.result, he]⟩
    | ok v =>
      obtain ⟨u, hu⟩ := Store.value_of_evaluate he hread
      rw [hd] at hu
      cases hu
  · exact ⟨_, hr⟩

/-- A clean formula that depends on one with a fault has a fault, however many lie between. -/
theorem SoundOK.error_of_path {w : Workbook} (h : w.SoundOK) {c d : CellAddress} {fault : Fault}
    (hc : c ∉ w.dirty) (hcd : TransGen w.DependsOn c d)
    (hd : w.store.result? d = some (.error fault)) :
    ∃ fault', w.store.result? c = some (.error fault') := by
  induction hcd using TransGen.head_induction_on with
  | single hstep =>
    obtain ⟨_, hvalue⟩ := Store.value_of_error hd
    exact h.error_of_dependsOn hc hstep hvalue
  | head hstep _ ih =>
    obtain ⟨_, hb⟩ := ih (clean_of_dependsOn h.dirty h.wired hc hstep)
    obtain ⟨_, hvalue⟩ := Store.value_of_error hb
    exact h.error_of_dependsOn hc hstep hvalue

theorem SoundOK.value_of_cycle {w : Workbook} (h : w.SoundOK) {c d : CellAddress}
    (hcd : ReflTransGen w.DependsOn c d) (hd : w.OnCycle d) (hc : c ∉ w.dirty) :
    ∃ fault, w.store.value c = .error fault := by
  induction hcd using ReflTransGen.head_induction_on with
  | refl =>
    obtain ⟨e, ⟨f, hf, -⟩, -⟩ := TransGen.head'_iff.1 hd
    exact Store.value_of_error ((h.fresh _ f hf hc).cycle hd)
  | head hstep _ ih =>
    obtain ⟨_, hb⟩ := ih (clean_of_dependsOn h.dirty h.wired hc hstep)
    obtain ⟨_, hr⟩ := h.error_of_dependsOn hc hstep hb
    exact Store.value_of_error hr

theorem SoundOK.error_of_cycle {w : Workbook} (h : w.SoundOK) {c d : CellAddress}
    (hc : c ∉ w.dirty) (hcd : TransGen w.DependsOn c d) (hd : w.OnCycle d) :
    ∃ fault, w.store.result? c = some (.error fault) := by
  have hclean : d ∉ w.dirty := transGen_stays (P := fun a => a ∉ w.dirty)
    (fun _ _ => clean_of_dependsOn h.dirty h.wired) hc hcd
  obtain ⟨e, ⟨f, hf, -⟩, -⟩ := TransGen.head'_iff.1 hd
  exact h.error_of_path hc hcd ((h.fresh d f hf hclean).cycle hd)

/-- **No fault is masked, after any operations.** However a workbook came about, a clean formula has
a fault if it reads a formula that has one: as a cell, inside a range that was spread out or is
watched, through any chain of names, and also by way of other formulas. -/
theorem faults_are_not_masked (policy : TextPolicy) (operations : List Operation) :
    let w := (Workbook.empty policy).run operations
    ∀ c d fault, c ∉ w.dirty → TransGen w.DependsOn c d →
      w.store.result? d = some (.error fault) →
        ∃ fault', w.store.result? c = some (.error fault') := by
  intro w c d fault hc hcd hd
  have h : w.SoundOK := Reachable.soundOK ⟨policy, operations, rfl⟩
  exact h.error_of_path hc hcd hd

/-- A fault inside a watched rectangle, which a formula reads through two names: the call that
passes over texts and empty cells does not pass over it, and neither does what reads the call. -/
theorem faults_are_not_masked_watched :
    let w := (Workbook.empty .skip).run [.appendSheet "S", .setCell ⟨0, 7, 0⟩ (.formula "=z"),
      .setCell ⟨0, 0, 1⟩ (.formula "=CONCATENATE(\"a\",x)"), .setCell ⟨0, 0, 2⟩ (.formula "=-B1"),
      .defineName "x" "y", .defineName "y" "A1:A5000", .calculate]
    ((w.dirty.toList = [] ∧ w.store.result? ⟨0, 7, 0⟩ = some (.error .nameNotFound)) ∧
        (w.store.formula? ⟨0, 0, 1⟩).map Formula.names = some ["x"] ∧
        w.names.references ["x"] = [.range (.ofCorners 0 0 0 4999 0)] ∧
        (w.store.formula? ⟨0, 0, 2⟩).map Formula.references = some [.cell ⟨0, 0, 1⟩]) ∧
      ∃ fault, w.store.result? ⟨0, 0, 2⟩ = some (.error fault) := by
  refine (fun facts => ⟨facts, ?_⟩) (by cbv; exact ⟨rfl, rfl⟩)
  obtain ⟨⟨hdirty, hresult⟩, hB, hx, hC⟩ := facts
  obtain ⟨f, hf, hnames⟩ := Option.map_eq_some_iff.1 hB
  obtain ⟨g, hg, hreferences⟩ := Option.map_eq_some_iff.1 hC
  have hclean : (⟨0, 0, 2⟩ : CellAddress) ∉ (run (.empty .skip) _).dirty := fun hc =>
    List.not_mem_nil (hdirty ▸ Std.ExtTreeSet.mem_toList.2 hc)
  refine faults_are_not_masked .skip _ _ ⟨0, 7, 0⟩ _ hclean
    (.head (b := ⟨0, 0, 1⟩) ?_ (.single ?_)) hresult
  · exact ⟨g, hg, _, List.mem_append_left _ (hreferences ▸ List.mem_singleton_self _), by decide⟩
  · exact ⟨f, hf, _, List.mem_append_right _ (hnames ▸ hx ▸ List.mem_singleton_self _), by decide⟩

/-! ## Freshness -/

/-- **Every clean formula is fresh, after any operations.** However a workbook came about, a formula
that is not dirty has a result: the fault of cycles if and only if the formula depends on itself; a
fault if it does not, but depends on a cell that does; and otherwise exactly what the formula comes
to against the store, the names and the policy of the workbook. -/
theorem clean_formulas_are_fresh (policy : TextPolicy) (operations : List Operation) :
    let w := (Workbook.empty policy).run operations
    ∀ c f, w.store.formula? c = some f → c ∉ w.dirty → ∃ r, w.store.result? c = some r ∧
      (r = .error .circularReference ↔ w.OnCycle c) ∧
      (¬ w.OnCycle c → w.DependsOnCycle c → r.isError = true) ∧
      (¬ w.OnCycle c → ¬ w.DependsOnCycle c →
        r = (w.store.context w.names w.policy).result f.tree) := by
  intro w c f hf hc
  have h : w.SoundOK := Reachable.soundOK ⟨policy, operations, rfl⟩
  have hright := h.fresh c f hf hc
  by_cases hcycle : w.OnCycle c
  · exact ⟨_, hright.cycle hcycle, iff_of_true rfl hcycle, fun hn => absurd hcycle hn,
      fun hn => absurd hcycle hn⟩
  rcases hright.beside hcycle with hr | ⟨hbelow, hr⟩
  · refine ⟨_, hr, iff_of_false ?_ hcycle, fun _ hbelow => ?_, fun _ _ => rfl⟩
    · exact Store.result_ne_circularReference _ _ _ _
    · obtain ⟨d, hcd, hd⟩ := hbelow
      obtain ⟨fault, hvalue⟩ := h.value_of_cycle hcd.to_reflTransGen hd hc
      rw [Store.value, Store.get?_of_formula? hf, hr] at hvalue
      cases ho : w.outcome f with
      | error _ => rfl
      | number _ | text _ => rw [ho] at hvalue; cases hvalue
  · exact ⟨_, hr, iff_of_false (by simp) hcycle, fun _ _ => rfl, fun _ hn => absurd hbelow hn⟩

theorem off_cycles_of_inputs {w : Workbook} {c : CellAddress}
    (h : ∀ d, w.DependsOn c d → w.store.formula? d = none) :
    ¬ w.OnCycle c ∧ ¬ w.DependsOnCycle c := by
  have hends : ∀ d e, w.store.formula? d = none → ¬ w.DependsOn d e := fun d e hd ⟨_, hf, _⟩ => by
    cases hd.symm.trans hf
  have hoff : ∀ d, TransGen w.DependsOn c d → ¬ w.OnCycle d := fun d hcd hd => by
    obtain ⟨b, hcb, hbd⟩ := TransGen.head'_iff.1 hcd
    obtain ⟨e, hde, -⟩ := TransGen.head'_iff.1 hd
    rcases ReflTransGen.cases_head hbd with rfl | ⟨_, hstep, -⟩
    · exact hends _ e (h _ hcb) hde
    · exact hends b _ (h b hcb) hstep
  exact ⟨fun hc => hoff c hc hc, fun ⟨d, hcd, hd⟩ => hoff d hcd hd⟩

/-- A formula that reads itself is seen to be on a cycle by its result, and a formula that reads it
is seen to be on none. A formula that reads a text is off every cycle and has what it comes to. -/
theorem clean_formulas_are_fresh_loop :
    let w := (Workbook.empty .skip).run [.appendSheet "S", .setCell ⟨0, 0, 0⟩ (.formula "=A1"),
      .setCell ⟨0, 0, 1⟩ (.formula "=A1"), .setCell ⟨0, 0, 2⟩ (.formula "=D1"),
      .setCell ⟨0, 0, 3⟩ (.text "x"), .calculate]
    let below : Formula := ⟨"=D1", .reference (.cell ⟨0, 0, 3⟩)⟩
    (w.store.get? ⟨0, 0, 0⟩ = some (.formula ⟨"=A1", .reference (.cell ⟨0, 0, 0⟩)⟩
          (some (.error .circularReference))) ∧
      w.store.get? ⟨0, 0, 1⟩ = some (.formula ⟨"=A1", .reference (.cell ⟨0, 0, 0⟩)⟩
          (some (.error .refUnavailable))) ∧
      w.store.get? ⟨0, 0, 2⟩ = some (.formula below (some (.text "x"))) ∧
      below.references ++ w.names.references below.names = [.cell ⟨0, 0, 3⟩] ∧
      w.store.formula? ⟨0, 0, 3⟩ = none ∧ w.dirty.toList = []) ∧
      w.OnCycle ⟨0, 0, 0⟩ ∧ ¬ w.OnCycle ⟨0, 0, 1⟩ ∧
        (w.store.context w.names w.policy).result below.tree = .text "x" := by
  intro w below
  refine (fun facts => ⟨facts, ?_⟩) (by simp only [w, below]; cbv; exact ⟨rfl, rfl, rfl, trivial⟩)
  obtain ⟨hA, hB, hC, hreads, hD, hd⟩ := facts
  have hclean : ∀ c, c ∉ w.dirty := fun c hc =>
    List.not_mem_nil (hd ▸ Std.ExtTreeSet.mem_toList.2 hc)
  have hinputs : ∀ d, w.DependsOn ⟨0, 0, 2⟩ d → w.store.formula? d = none := by
    rintro d ⟨f, hf, target, ht, hc⟩
    cases (Store.formula?_eq_some.2 ⟨_, hC⟩).symm.trans hf
    rw [hreads, List.mem_singleton] at ht
    subst ht
    exact Range.contains_single.1 hc ▸ hD
  obtain ⟨r, hr, hcycle, -⟩ := clean_formulas_are_fresh .skip _ _ _
    (Store.formula?_eq_some.2 ⟨_, hA⟩) (hclean _)
  obtain ⟨r', hr', hcycle', -⟩ := clean_formulas_are_fresh .skip _ _ _
    (Store.formula?_eq_some.2 ⟨_, hB⟩) (hclean _)
  obtain ⟨r'', hr'', -, -, hfresh⟩ := clean_formulas_are_fresh .skip _ _ _
    (Store.formula?_eq_some.2 ⟨_, hC⟩) (hclean _)
  rw [Store.result?_of_get? hA] at hr
  rw [Store.result?_of_get? hB] at hr'
  rw [Store.result?_of_get? hC] at hr''
  cases hr
  cases hr'
  cases hr''
  obtain ⟨hoff, hbeside⟩ := off_cycles_of_inputs hinputs
  exact ⟨hcycle.1 rfl, fun h => absurd (hcycle'.2 h) (by simp), (hfresh hoff hbeside).symm⟩

end Workbook

end Spreadsheet
