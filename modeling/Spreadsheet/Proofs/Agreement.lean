/-
How far results depend on the history of a workbook. Two workbooks with the
same sheets, contents, names and policy have, once calculated, the same
results in every cell that is on a cycle or depends on none
(`result?_calculate_eq`). Below a cycle a formula has the fault of
unavailable results when the cycle was calculated with it, and what it comes
to when the cycle had been calculated before. So results agree over all
histories exactly when no such formula comes to anything else
(`result?_calculate_eq_of_unavailable`, `outcome_of_agree`).
-/
import Spreadsheet.Proofs.Parsing

namespace Spreadsheet

open Relation

namespace CellContent

/-- What was put into a cell to make its content. -/
def input : CellContent → CellInput
  | number x => .number x
  | text s => .text s
  | boolean b => .boolean b
  | formula f _ => .formula f.source

end CellContent

namespace Workbook

/-! ## The same inputs -/

/-- Two workbooks have the same sheets, the same literals and formula texts in their cells, the same
texts bound to names and the same policy. -/
structure SameInputs (v w : Workbook) : Prop where
  sheets : v.store.sheets = w.store.sheets
  contents : ∀ c, (v.store.get? c).map CellContent.input = (w.store.get? c).map CellContent.input
  names : ∀ n, v.names.source? n = w.names.source? n
  policy : v.policy = w.policy

/-- Two workbooks are the same but for results and what is dirty. -/
structure SameBut (v w : Workbook) : Prop where
  contents : ∀ c, (v.store.get? c).map (CellContent.withResult none) =
    (w.store.get? c).map (CellContent.withResult none)
  names : v.names = w.names
  policy : v.policy = w.policy

theorem SameInputs.refl (w : Workbook) : w.SameInputs w := ⟨rfl, fun _ => rfl, fun _ => rfl, rfl⟩

theorem SameInputs.trans {u v w : Workbook} (h : u.SameInputs v) (h' : v.SameInputs w) :
    u.SameInputs w :=
  ⟨h.sheets.trans h'.sheets, fun c => (h.contents c).trans (h'.contents c),
    fun n => (h.names n).trans (h'.names n), h.policy.trans h'.policy⟩

/-- **The same texts are read to the same formulas.** -/
theorem SameInputs.sameBut {v w : Workbook} (h : v.SameInputs w) (hv : v.ReadOK) (hw : w.ReadOK) :
    v.SameBut w := by
  have hread := readFormula_congr h.sheets
  have same : ∀ {sheet : Nat} {f g : Formula}, v.readFormula sheet f.source = .ok f →
      w.readFormula sheet g.source = .ok g → f.source = g.source → f = g := fun hf hg hfg => by
    rw [hread, hfg, hg] at hf
    injection hf with hf
    exact hf.symm
  refine ⟨fun c => ?_, ?_, h.policy⟩
  · have hc := h.contents c
    cases hvc : v.store.get? c with
    | none =>
      rw [hvc] at hc
      rw [Option.map_eq_none_iff.1 hc.symm]
    | some content =>
      rw [hvc] at hc
      obtain ⟨content', hwc, hinput⟩ := Option.map_eq_some_iff.1 hc.symm
      rw [hwc]
      cases content with
      | formula f r =>
        cases content' with
        | formula g r' =>
          have hfg := same (hv.cells c f (Store.formula?_eq_some.2 ⟨r, hvc⟩))
            (hw.cells c g (Store.formula?_eq_some.2 ⟨r', hwc⟩)) (CellInput.formula.inj hinput).symm
          rw [hfg]
          rfl
        | number _ | text _ | boolean _ => cases hinput
      | number _ | text _ | boolean _ =>
        cases content' <;> cases hinput
        rfl
  · refine NameTable.ext_definitions (Std.ExtTreeMap.ext_getElem? fun n => ?_)
    have hn := h.names n
    rw [NameTable.source?, NameTable.source?] at hn
    cases hvn : v.names.definitions[n]? with
    | none =>
      rw [hvn] at hn
      exact (Option.map_eq_none_iff.1 hn.symm).symm
    | some f =>
      rw [hvn] at hn
      obtain ⟨g, hwn, hg⟩ := Option.map_eq_some_iff.1 hn.symm
      rw [hwn, same (hv.names n f hvn) (hw.names n g hwn) hg.symm]

theorem SameBut.symm {v w : Workbook} (h : v.SameBut w) : w.SameBut v :=
  ⟨fun c => (h.contents c).symm, h.names.symm, h.policy.symm⟩

theorem formula?_of_withResult {s t : Store} {c : CellAddress}
    (h : (s.get? c).map (CellContent.withResult none) = (t.get? c).map (CellContent.withResult none)) :
    s.formula? c = t.formula? c := by
  have cleared : ∀ (s : Store) (f : Formula), s.formula? c = some f ↔
      (s.get? c).map (CellContent.withResult none) = some (.formula f none) := fun s f => by
    rw [Store.formula?_eq_some]
    rcases s.get? c with - | content
    · simp
    · cases content <;> simp [CellContent.withResult]
  refine Option.ext fun f => ?_
  rw [cleared, h, cleared]

theorem SameBut.trans {u v w : Workbook} (h : u.SameBut v) (h' : v.SameBut w) : u.SameBut w :=
  ⟨fun c => (h.contents c).trans (h'.contents c), h.names.trans h'.names, h.policy.trans h'.policy⟩

theorem SameBut.formula?_eq {v w : Workbook} (h : v.SameBut w) (c : CellAddress) :
    v.store.formula? c = w.store.formula? c := formula?_of_withResult (h.contents c)

theorem SameBut.dependsOn_eq {v w : Workbook} (h : v.SameBut w) : v.DependsOn = w.DependsOn := by
  funext c input
  rw [DependsOn, h.formula?_eq, h.names, DependsOn]

theorem SameBut.onCycle_iff {v w : Workbook} (h : v.SameBut w) {c : CellAddress} :
    v.OnCycle c ↔ w.OnCycle c := by rw [OnCycle, h.dependsOn_eq, OnCycle]

theorem SameBut.dependsOnCycle_iff {v w : Workbook} (h : v.SameBut w) {c : CellAddress} :
    v.DependsOnCycle c ↔ w.DependsOnCycle c := by
  simp only [DependsOnCycle, OnCycle, h.dependsOn_eq]

theorem SameBut.get?_eq {v w : Workbook} (h : v.SameBut w) {c : CellAddress}
    (hr : ∀ f, w.store.formula? c = some f → v.store.result? c = w.store.result? c) :
    v.store.get? c = w.store.get? c := by
  cases hf : w.store.formula? c with
  | some f =>
    rw [Store.get?_of_formula? hf, Store.get?_of_formula? (h.formula?_eq c ▸ hf), hr f hf]
  | none =>
    have literal : ∀ s : Store, s.formula? c = none →
        (s.get? c).map (CellContent.withResult none) = s.get? c := fun s hs => by
      unfold Store.formula? at hs
      rcases hget : s.get? c with - | content
      · rfl
      · rw [hget] at hs
        cases content with
        | formula f r => cases hs
        | number _ | text _ | boolean _ => rfl
    rw [← literal _ hf, ← literal _ (h.formula?_eq c ▸ hf), h.contents]

/-! ## Agreement beside what depends on cycles -/

/-- The results of a workbook are those of a complete calculation: right everywhere, and the fault of
unavailable results wherever a formula depends on a cycle. -/
structure Settled (w : Workbook) : Prop where
  right : ∀ c f, w.store.formula? c = some f → w.RightAt c f
  below : ∀ c f, w.store.formula? c = some f → ¬ w.OnCycle c → w.DependsOnCycle c →
    w.store.result? c = some (.error .refUnavailable)

/-- What holds of a cell once it holds of all that the cell depends on holds of every cell, if on a
cycle it holds anyway. -/
theorem induction_beside {w : Workbook} {P : CellAddress → Prop}
    (step : ∀ c, (¬ w.OnCycle c → ∀ d, w.DependsOn c d → P d) → P c) (c : CellAddress) : P c := by
  -- the dependencies of cells beside cycles do not close
  refine acyclic_induction (R := fun a b => w.DependsOn a b ∧ ¬ w.OnCycle a) w.formulaCells
    (fun a b hab => ?_) (fun a ha => ?_) (fun a ih => step a fun ha b hab => ih b ⟨hab, ha⟩) c
  · obtain ⟨⟨f, hf, -⟩, -⟩ := hab
    exact mem_formulaCells.2 (Store.isFormula_iff.2 ⟨f, hf⟩)
  · obtain ⟨b, hb, -⟩ := TransGen.head'_iff.1 ha
    exact hb.2 (ha.lift id fun _ _ h => h.1)

/-- **Two workbooks with right results agree with a settled one** on a set of cells that reads no
others, if below cycles the formulas of the set come to the fault of unavailable results there. -/
theorem get?_eq_of_settled {v w : Workbook} (h : v.SameBut w)
    (hv : ∀ c f, v.store.formula? c = some f → v.RightAt c f) (hw : w.Settled)
    {P : CellAddress → Prop} (hstay : ∀ c d, P c → w.DependsOn c d → P d)
    (hbelow : ∀ c f, P c → w.store.formula? c = some f → ¬ w.OnCycle c → w.DependsOnCycle c →
      w.outcome f = .error .refUnavailable) (c : CellAddress) :
    P c → v.store.get? c = w.store.get? c := by
  -- on a cycle the result is known without those of other cells
  refine induction_beside (w := w) (P := fun c => P c → v.store.get? c = w.store.get? c)
    (fun c ih hc => ?_) c
  refine h.get?_eq fun f hf => ?_
  have hvright := hv c f (h.formula?_eq c ▸ hf)
  by_cases hcycle : w.OnCycle c
  · rw [hvright.cycle (h.onCycle_iff.2 hcycle), (hw.right c f hf).cycle hcycle]
  have houtcome : v.outcome f = w.outcome f := by
    rw [outcome, outcome, h.names, h.policy]
    refine Store.result_congr (.refl _ _) fun d hd => ?_
    have hcd : w.DependsOn c d := ⟨f, hf, h.names ▸ hd⟩
    exact ih hcycle d hcd (hstay c d hc hcd)
  by_cases hdown : w.DependsOnCycle c
  · rw [hw.below c f hf hcycle hdown]
    rcases hvright.beside (fun hn => hcycle (h.onCycle_iff.1 hn)) with hr | ⟨-, hr⟩
    · rw [hr, houtcome, hbelow c f hc hf hcycle hdown]
    · exact hr
  · have hvr := (hvright.beside fun hn => hcycle (h.onCycle_iff.1 hn)).resolve_right fun hn =>
      hdown (h.dependsOnCycle_iff.1 hn.1)
    have hwr := ((hw.right c f hf).beside hcycle).resolve_right fun hn => hdown hn.1
    rw [hvr, hwr, houtcome]

/-! ## What keeps the inputs -/

theorem input_withResult (content : CellContent) (r : Option CellResult) :
    (content.withResult r).input = content.input := by cases content <;> rfl

theorem contents_markDirty (w : Workbook) (x c : CellAddress) :
    ((w.markDirty x).store.get? c).map CellContent.input =
      (w.store.get? c).map CellContent.input := by
  rw [get?_markDirty]
  split
  · rcases w.store.get? c with - | content
    · rfl
    · exact congrArg some (input_withResult content none)
  · rfl

theorem SameInputs.markDirty {v w : Workbook} (h : v.SameInputs w) (x : CellAddress) :
    (v.markDirty x).SameInputs w :=
  ⟨(sheets_markDirty v x).trans h.sheets, fun c => (contents_markDirty v x c).trans (h.contents c),
    h.names, h.policy⟩

theorem sameInputs_setPolicy (w : Workbook) (policy : TextPolicy) :
    (w.setPolicy policy).SameInputs { w with policy := policy } := by
  unfold setPolicy
  split
  · rename_i hp
    exact ⟨rfl, fun _ => rfl, fun _ => rfl, hp.symm⟩
  · exact foldl_keeps (P := (SameInputs · { w with policy := policy })) (fun _ x h => h.markDirty x) _
      (.refl _)

theorem sameInputs_calculate (w : Workbook) : w.calculate.1.SameInputs w := by
  refine ⟨sheets_calculate w, fun c => ?_, fun _ => rfl, rfl⟩
  by_cases hc : c ∈ w.targets
  · obtain ⟨f, hf⟩ := Store.isFormula_iff.1 (mem_targets.1 hc).2
    rw [Store.get?_of_formula? hf, Store.get?_of_formula? ((formula?_calculate w c).trans hf)]
    rfl
  · rw [get?_calculate_other hc]

/-- The text policy that is not the given one. -/
def otherPolicy : TextPolicy → TextPolicy
  | .skip => .error
  | .error => .skip

theorem otherPolicy_ne (policy : TextPolicy) : otherPolicy policy ≠ policy := by
  cases policy <;> simp [otherPolicy]

/-- A workbook with every formula dirty: the policy is changed and changed back. -/
def touched (w : Workbook) : Workbook := (w.setPolicy (otherPolicy w.policy)).setPolicy w.policy

/-- A workbook with every formula calculated anew. -/
def recalculated (w : Workbook) : Workbook := w.touched.calculate.1

theorem sameInputs_touched (w : Workbook) : w.touched.SameInputs w := by
  have h₁ := w.sameInputs_setPolicy (otherPolicy w.policy)
  have h₂ := (w.setPolicy (otherPolicy w.policy)).sameInputs_setPolicy w.policy
  exact h₂.trans ⟨h₁.sheets, h₁.contents, h₁.names, rfl⟩

theorem sameInputs_recalculated (w : Workbook) : w.recalculated.SameInputs w :=
  w.touched.sameInputs_calculate.trans w.sameInputs_touched

theorem Reachable.touched {w : Workbook} (h : w.Reachable) : w.touched.Reachable :=
  (h.perform (.setPolicy (otherPolicy w.policy))).perform (.setPolicy w.policy)

theorem Reachable.calculated {w : Workbook} (h : w.Reachable) : w.calculate.1.Reachable :=
  h.perform .calculate

theorem mem_dirty_touched {w : Workbook} {c : CellAddress} (h : w.touched.store.isFormula c = true) :
    c ∈ w.touched.dirty := by
  have hp : w.policy ≠ (w.setPolicy (otherPolicy w.policy)).policy := by
    rw [(w.sameInputs_setPolicy _).policy]
    exact (otherPolicy_ne w.policy).symm
  obtain ⟨f, hf⟩ := Store.isFormula_iff.1 h
  rw [Workbook.touched, setPolicy, if_neg hp] at hf ⊢
  rw [formula?_markAll] at hf
  exact mem_dirty_repolicy (Store.isFormula_iff.2 ⟨f, hf⟩)

/-- **A pass over every formula settles the workbook.** -/
theorem settled_calculate {w : Workbook} (h : w.SoundOK)
    (hall : ∀ c, w.store.isFormula c = true → c ∈ w.dirty) : w.calculate.1.Settled where
  right c f hf := Fresh.calculate h c f hf (by simp [Workbook.calculate])
  below c f hf hcycle hbelow := by
    rw [formula?_calculate] at hf
    rw [OnCycle, dependsOn_calculate] at hcycle
    obtain ⟨d, hcd, hd⟩ := hbelow
    rw [OnCycle] at hd
    rw [dependsOn_calculate] at hcd hd
    obtain ⟨e, ⟨g, hg, -⟩, -⟩ := TransGen.head'_iff.1 hd
    have hg := Store.isFormula_iff.2 ⟨g, hg⟩
    have hmem : c ∈ w.plan.cycleDependents := (mem_cycleDependents_iff h.wired h.dirty).2
      ⟨hcycle, d, mem_targets.2 ⟨hall d hg, hg⟩, hcd, hd⟩
    exact Store.result?_of_get? (get?_calculate_dependent hf hmem)

theorem Reachable.recalculated {w : Workbook} (h : w.Reachable) : w.recalculated.Reachable :=
  h.touched.calculated

theorem sameBut_recalculated {w : Workbook} (h : w.Reachable) : w.recalculated.SameBut w :=
  w.sameInputs_recalculated.sameBut h.recalculated.readOK h.readOK

theorem Reachable.settled {w : Workbook} (h : w.Reachable) : w.recalculated.Settled :=
  settled_calculate h.touched.soundOK fun _ => mem_dirty_touched

/-! ## A formula written again -/

theorem setCell_again {w : Workbook} (h : w.ReadOK) {c : CellAddress} {f : Formula}
    (hf : w.store.formula? c = some f) :
    (w.setCell c (.formula f.source)).1 = w.writeFormula c f := by
  have hsheet := checkSheet_ok.2 (Store.hasSheet_of_get? (Store.get?_of_formula? hf))
  simp only [setCell, hsheet, setFormula, h.cells c f hf]

theorem writeFormula_again {w : Workbook} {c : CellAddress} {f : Formula}
    (hf : w.store.formula? c = some f) : ∃ u, w.writeFormula c f = u.markDirty c ∧
      w.Edited u c (some (.formula f none)) (dependenciesOf w.names f) (!f.names.isEmpty) :=
  write_edited (Store.hasSheet_of_get? (Store.get?_of_formula? hf)) _ _ _

theorem sameInputs_again {w : Workbook} {c : CellAddress} {f : Formula}
    (hf : w.store.formula? c = some f) : (w.writeFormula c f).SameInputs w := by
  obtain ⟨u, hu, he⟩ := writeFormula_again hf
  rw [hu]
  refine .markDirty ⟨he.sheets, fun d => ?_, fun n => by rw [he.names], he.policy⟩ c
  by_cases hd : d = c
  · rw [hd, he.get?_self, Store.get?_of_formula? hf]
    rfl
  · rw [he.get?_other d hd]

theorem dependsOn_of_mem_dirty {u : Workbook} {c d : CellAddress} (hw : (u.markDirty c).WiredOK)
    (hclean : u.dirty = ∅) (hd : d ∈ (u.markDirty c).dirty) :
    d = c ∨ TransGen (u.markDirty c).DependsOn d c := by
  rw [mem_dirty_markDirty, hclean, newly, Links.mem_newlyDirty] at hd
  have hp := (hd.resolve_right Std.ExtTreeSet.not_mem_empty).2
  clear hd
  induction hp with
  | refl => exact .inl rfl
  | tail _ hs ih =>
    have hdep := hw.tied_iff.1 ((above_iff_tied (w := u.markDirty c)).1 hs.1)
    rcases ih with rfl | ih
    · exact .inr (.single hdep)
    · exact .inr (.head hdep ih)

/-- A target on no cycle is in order if all that is dirty depends on it: a cycle that it depended on
would lead back to it. -/
theorem mem_order_of_dependsOn {w : Workbook} (h : w.SoundOK) {c : CellAddress}
    (hc : c ∈ w.targets) (hcycle : ¬ w.OnCycle c)
    (hdirty : ∀ d ∈ w.dirty, d = c ∨ TransGen w.DependsOn d c) : c ∈ w.plan.order := by
  refine (mem_plan.1 hc).resolve_right fun hn => ?_
  rcases hn with hn | hn
  · exact hcycle ((mem_cycleMembers_iff h.wired h.dirty).1 hn).2
  · obtain ⟨-, d, hd, hcd, hdd⟩ := (mem_cycleDependents_iff h.wired h.dirty).1 hn
    rcases hdirty d (mem_targets.1 hd).1 with rfl | hdc
    · exact hcycle hdd
    · exact hcycle (hcd.trans hdc)

/-- **A formula that is written again after everything has been calculated comes to what it comes to
against those results**, if it is on no cycle: the only targets are the cell and what depends on it,
so that nothing it reads is one. -/
theorem result?_again {w : Workbook} (h : w.SoundOK) (hread : w.ReadOK) (hclean : w.dirty = ∅)
    {c : CellAddress} {f : Formula} (hf : w.store.formula? c = some f) (hcycle : ¬ w.OnCycle c) :
    (w.writeFormula c f).calculate.1.store.result? c = some (w.outcome f) := by
  have hstep : w.Step (w.writeFormula c f) := setCell_again hread hf ▸ w.perform_step (.setCell c _)
  have hsound := h.step hstep
  have hsame := (sameInputs_again hf).sameBut (hread.step hstep) hread
  obtain ⟨u, hu, he⟩ := writeFormula_again hf
  rw [hu] at hsound hsame ⊢
  have hfu : (u.markDirty c).store.formula? c = some f := (hsame.formula?_eq c).trans hf
  have hcycle : ¬ (u.markDirty c).OnCycle c := fun hn => hcycle (hsame.onCycle_iff.1 hn)
  have hdirty : ∀ d ∈ (u.markDirty c).dirty, d = c ∨ TransGen (u.markDirty c).DependsOn d c :=
    fun d hd => dependsOn_of_mem_dirty hsound.wired (he.dirty.trans hclean) hd
  have hc : c ∈ (u.markDirty c).targets :=
    mem_targets.2 ⟨self_mem_dirty_markDirty u c, Store.isFormula_iff.2 ⟨f, hfu⟩⟩
  have horder := mem_order_of_dependsOn hsound hc hcycle hdirty
  rw [result?_calculate_order hsound.wired hfu horder]
  have hnames : (u.markDirty c).calculate.1.names = w.names := hsame.names
  have hpolicy : (u.markDirty c).calculate.1.policy = w.policy := hsame.policy
  rw [outcome, outcome, hnames, hpolicy]
  -- what the formula reads is not dirty, so that neither the write nor the pass touches it
  refine congrArg some (Store.result_congr (.refl _ _) fun d hd => ?_)
  have hcd : (u.markDirty c).DependsOn c d := ⟨f, hfu, hnames ▸ hd⟩
  have hclean : d ∉ (u.markDirty c).dirty := fun hn => by
    rcases hdirty d hn with rfl | hdc
    · exact hcycle (.single hcd)
    · exact hcycle (.head hcd hdc)
  have hne : d ≠ c := by
    rintro rfl
    exact hclean (self_mem_dirty_markDirty u d)
  rw [get?_calculate_other fun hn => hclean (mem_targets.1 hn).1, (markDirty_clean hclean).2,
    he.get?_other d hne]

/-! ## All histories -/

section Histories

variable {v w : Workbook}

theorem sameBut_calculated (hv : v.Reachable) (hw : w.Reachable) (h : v.SameInputs w) :
    v.calculate.1.SameBut w.recalculated :=
  ((v.sameInputs_calculate.trans h).sameBut hv.calculated.readOK hw.readOK).trans
    (sameBut_recalculated hw).symm

theorem Reachable.rightAt_calculated (h : v.Reachable) {c : CellAddress} {f : Formula}
    (hf : v.calculate.1.store.formula? c = some f) : v.calculate.1.RightAt c f :=
  Fresh.calculate h.soundOK c f hf (by simp [Workbook.calculate])

/-- **Beside cycles and on them the history makes no difference.** -/
theorem result?_calculate_eq (hv : v.Reachable) (hw : w.Reachable) (h : v.SameInputs w)
    {c : CellAddress} (hc : w.OnCycle c ∨ ¬ w.DependsOnCycle c) :
    v.calculate.1.store.result? c = w.recalculated.store.result? c := by
  have hsame := sameBut_calculated hv hw h
  rw [← (sameBut_recalculated hw).onCycle_iff, ← (sameBut_recalculated hw).dependsOnCycle_iff] at hc
  rcases hc with hc | hc
  · obtain ⟨d, ⟨f, hf, -⟩, -⟩ := TransGen.head'_iff.1 hc
    rw [(hw.settled.right c f hf).cycle hc]
    exact (hv.rightAt_calculated ((hsame.formula?_eq c).trans hf)).cycle (hsame.onCycle_iff.2 hc)
  · refine Store.result?_congr (get?_eq_of_settled (P := fun c => ¬ w.recalculated.DependsOnCycle c)
      hsame (fun _ _ hf => hv.rightAt_calculated hf) hw.settled (fun a b ha hab hb => ha ?_)
      (fun _ _ ha _ _ hd => absurd hd ha) c hc)
    obtain ⟨d, hbd, hd⟩ := hb
    exact ⟨d, .head hab hbd, hd⟩

/-- The history makes no difference at all if the formulas below cycles come to the fault of
unavailable results anyway. -/
theorem result?_calculate_eq_of_unavailable (hv : v.Reachable) (hw : w.Reachable)
    (h : v.SameInputs w) (hbelow : ∀ c f, w.store.formula? c = some f → w.DependsOnCycle c →
      ¬ w.OnCycle c → w.recalculated.outcome f = .error .refUnavailable) (c : CellAddress) :
    v.calculate.1.store.result? c = w.recalculated.store.result? c := by
  have hsame := sameBut_recalculated hw
  refine Store.result?_congr (get?_eq_of_settled (P := fun _ => True) (sameBut_calculated hv hw h)
    (fun _ _ hf => hv.rightAt_calculated hf) hw.settled (fun _ _ _ _ => trivial)
    (fun d f _ hf hcycle hdown => ?_) c trivial)
  exact hbelow d f ((hsame.formula?_eq d).symm.trans hf) (hsame.dependsOnCycle_iff.1 hdown)
    fun hn => hcycle (hsame.onCycle_iff.2 hn)

/-- A formula below a cycle comes to the fault of unavailable results if the history makes no
difference to it: written again after everything has been recalculated, it gets what it comes to. -/
theorem outcome_of_agree (hw : w.Reachable) {c : CellAddress} {f : Formula}
    (hagree : ∀ v : Workbook, v.Reachable → v.SameInputs w →
      v.calculate.1.store.result? c = w.calculate.1.store.result? c)
    (hf : w.store.formula? c = some f) (hbelow : w.DependsOnCycle c) (hcycle : ¬ w.OnCycle c) :
    w.recalculated.outcome f = .error .refUnavailable := by
  have hsame := sameBut_recalculated hw
  have hread := hw.recalculated.readOK
  have hf : w.recalculated.store.formula? c = some f := (hsame.formula?_eq c).trans hf
  have hcycle : ¬ w.recalculated.OnCycle c := fun hn => hcycle (hsame.onCycle_iff.1 hn)
  have hreach : (w.recalculated.writeFormula c f).Reachable := by
    rw [← setCell_again hread hf]
    exact hw.recalculated.perform (.setCell c (.formula f.source))
  have hnew := result?_again hw.recalculated.soundOK hread rfl hf hcycle
  rw [hagree _ hreach ((sameInputs_again hf).trans w.sameInputs_recalculated),
    ← hagree w.touched hw.touched w.sameInputs_touched] at hnew
  exact Option.some.inj (hnew.symm.trans
    (hw.settled.below c f hf hcycle (hsame.dependsOnCycle_iff.2 hbelow)))

theorem result?_below (hv : v.Reachable) {c : CellAddress} {f : Formula}
    (hf : v.store.formula? c = some f) (hbelow : v.DependsOnCycle c) :
    ∃ fault, v.calculate.1.store.result? c = some (.error fault) := by
  have hfv := (formula?_calculate v c).trans hf
  have hsound := hv.calculated.soundOK
  obtain ⟨d, hcd, hd⟩ := hbelow
  have hcd : TransGen v.calculate.1.DependsOn c d := by rwa [dependsOn_calculate]
  have hd : v.calculate.1.OnCycle d := by rwa [OnCycle, dependsOn_calculate]
  have hclean : c ∉ v.calculate.1.dirty := by simp [Workbook.calculate]
  obtain ⟨fault, hvalue⟩ := hsound.value_of_cycle hcd.to_reflTransGen hd hclean
  rw [Store.value, Store.get?_of_formula? hfv] at hvalue
  cases hr : v.calculate.1.store.result? c with
  | none => exact absurd hr fun hn => hclean ((hsound.dirty.stale c f hfv).2 hn)
  | some r =>
    cases r with
    | error fault => exact ⟨fault, rfl⟩
    | number _ | text _ => rw [hr] at hvalue; cases hvalue

end Histories

/-- **How far results depend on the history.** Take all workbooks with the inputs of one: the same
sheets, contents, names and policy, whatever was done before. Once calculated they have the same
result in every cell that is on a cycle or depends on none, and a fault in every formula that depends
on a cycle. They have the same results everywhere if and only if each formula that depends on a cycle
without being on one comes to the fault of unavailable results once all has been recalculated: that
fault is what a pass gives the formula together with the cycle, and what it comes to is what a pass
gives it alone. -/
theorem results_agree_iff_unavailable (policy : TextPolicy) (operations : List Operation) :
    let w := (Workbook.empty policy).run operations
    (∀ v : Workbook, v.Reachable → v.SameInputs w → ∀ c, w.OnCycle c ∨ ¬ w.DependsOnCycle c →
      v.calculate.1.store.result? c = w.calculate.1.store.result? c) ∧
    (∀ v : Workbook, v.Reachable → v.SameInputs w → ∀ c f, v.store.formula? c = some f →
      v.DependsOnCycle c → ∃ fault, v.calculate.1.store.result? c = some (.error fault)) ∧
    ((∀ v : Workbook, v.Reachable → v.SameInputs w → ∀ c,
        v.calculate.1.store.result? c = w.calculate.1.store.result? c) ↔
      ∀ c f, w.store.formula? c = some f → w.DependsOnCycle c → ¬ w.OnCycle c →
        (w.recalculated.store.context w.names w.policy).result f.tree = .error .refUnavailable) := by
  intro w
  have hw : w.Reachable := ⟨policy, operations, rfl⟩
  have houtcome : ∀ f, w.recalculated.outcome f =
      (w.recalculated.store.context w.names w.policy).result f.tree := fun f => by
    rw [outcome, (sameBut_recalculated hw).names, (sameBut_recalculated hw).policy]
  refine ⟨fun v hv h c hc => ?_, fun v hv _ c f hf hbelow => result?_below hv hf hbelow,
    fun hagree c f hf hbelow hcycle => ?_, fun hunavailable v hv h c => ?_⟩
  · rw [result?_calculate_eq hv hw h hc, result?_calculate_eq hw hw (.refl w) hc]
  · rw [← houtcome]
    exact outcome_of_agree hw (fun v hv h => hagree v hv h c) hf hbelow hcycle
  · simp only [← houtcome] at hunavailable
    rw [result?_calculate_eq_of_unavailable hv hw h hunavailable,
      result?_calculate_eq_of_unavailable hw hw (.refl w) hunavailable]

/-- A formula that reads itself has the same result when every formula is calculated anew, and a
formula that reads it has a fault. -/
theorem results_agree_iff_unavailable_loop :
    let w := (Workbook.empty .skip).run [.appendSheet "S", .setCell ⟨0, 0, 0⟩ (.formula "=A1"),
      .setCell ⟨0, 0, 1⟩ (.formula "=A1"), .calculate]
    let f : Formula := ⟨"=A1", .reference (.cell ⟨0, 0, 0⟩)⟩
    (w.store.formula? ⟨0, 0, 0⟩ = some f ∧ w.store.formula? ⟨0, 0, 1⟩ = some f) ∧
      w.touched.calculate.1.store.result? ⟨0, 0, 0⟩ = w.calculate.1.store.result? ⟨0, 0, 0⟩ ∧
      ∃ fault, w.calculate.1.store.result? ⟨0, 0, 1⟩ = some (.error fault) := by
  refine (fun facts => ⟨facts, ?_⟩) (by cbv; exact ⟨rfl, rfl⟩)
  obtain ⟨hA, hB⟩ := facts
  have hreads : ∀ names : NameTable,
      names.Reads ⟨"=A1", .reference (.cell ⟨0, 0, 0⟩)⟩ ⟨0, 0, 0⟩ := fun names =>
    ⟨.cell ⟨0, 0, 0⟩, List.mem_append_left _ (Formula.mem_references.2 (by simp [Expr.leaves])), by decide⟩
  have hcycle : OnCycle _ ⟨0, 0, 0⟩ := .single ⟨_, hA, hreads _⟩
  obtain ⟨hagree, hbelow, -⟩ := results_agree_iff_unavailable .skip _
  exact ⟨hagree _ (Reachable.touched ⟨.skip, _, rfl⟩) (sameInputs_touched _) _ (.inl hcycle),
    hbelow _ ⟨.skip, _, rfl⟩ (.refl _) _ _ hB ⟨_, .single ⟨_, hB, hreads _⟩, hcycle⟩⟩

/-- **Below a cycle the history can be seen.** Two histories that differ in one formula written again
after a pass end with the same inputs and different results. -/
theorem results_differ_below_cycle :
    let v := (Workbook.empty .skip).run [.appendSheet "S", .setCell ⟨0, 0, 0⟩ (.formula "=A1"),
      .setCell ⟨0, 0, 1⟩ (.formula "=foo+A1"), .calculate]
    let w := v.run [.setCell ⟨0, 0, 1⟩ (.formula "=foo+A1")]
    w.SameInputs v ∧ v.calculate.1.store.result? ⟨0, 0, 1⟩ = some (.error .refUnavailable) ∧
      w.calculate.1.store.result? ⟨0, 0, 1⟩ = some (.error .nameNotFound) := by
  refine ⟨?_, by cbv, by cbv⟩
  have hf : ((Workbook.empty .skip).run [.appendSheet "S", .setCell ⟨0, 0, 0⟩ (.formula "=A1"),
      .setCell ⟨0, 0, 1⟩ (.formula "=foo+A1"), .calculate]).store.formula? ⟨0, 0, 1⟩ =
        some ⟨"=foo+A1", .binary .add (.name "foo") (.reference (.cell ⟨0, 0, 0⟩))⟩ := by cbv
  have hsame := sameInputs_again hf
  rw [← setCell_again (Reachable.readOK ⟨.skip, _, rfl⟩) hf] at hsame
  exact hsame

end Workbook

end Spreadsheet
