/-
What cells are tied to. A formula is tied to exactly the cells that it
reads, whether a reference was spread out into edges or is watched as a
rectangle (`WiredOK.tied_iff`): every step ties the cells whose references
or names it changes anew (`WiredOK.step`), so that no cell stays tied to what an
older definition read (`wired_to_current_definitions`).
-/
import Spreadsheet.Workbook.Dependence
import Spreadsheet.Proofs.DirtySet
import Spreadsheet.Proofs.Names
import Spreadsheet.Proofs.Occurrences

namespace Spreadsheet

open Relation

/-! ## References spread out or kept whole -/

/-- **The dependencies of references record their cells**, and no others. -/
theorem Dependencies.records_iff {references : List Reference} {c : CellAddress} :
    (Dependencies.ofReferences references).Records c ↔
      ∃ target ∈ references, target.asRange.contains c = true := by
  simp only [Records, Dependencies.ofReferences, mem_distinctBeyond, List.mem_flatMap,
    List.mem_filter, List.mem_map, Range.mem_cells, List.mem_eraseDups]
  constructor
  · rintro (⟨r, ⟨⟨target, ht, rfl⟩, -⟩, hc⟩ | ⟨r, ⟨⟨target, ht, rfl⟩, -⟩, hc⟩)
    · exact ⟨target, ht, hc⟩
    · exact ⟨target, ht, hc⟩
  · rintro ⟨target, ht, hc⟩
    cases hl : Dependencies.isLarge target.asRange with
    | false => exact .inl ⟨_, ⟨⟨target, ht, rfl⟩, by simp [hl]⟩, hc⟩
    | true => exact .inr ⟨_, ⟨⟨target, ht, rfl⟩, hl⟩, hc⟩

theorem NameTable.reads_iff {t : NameTable} {f : Formula} {input : CellAddress} :
    t.Reads f input ↔ (∃ target ∈ f.references, target.asRange.contains input = true) ∨
      ∃ used ∈ f.names, ∃ n, ReflTransGen t.Uses used n ∧ ∃ d, t.definitions[n]? = some d ∧
        ∃ target ∈ d.references, target.asRange.contains input = true := by
  simp only [Reads, List.mem_append, mem_references, mem_closure]
  constructor
  · rintro ⟨target, hown | ⟨n, ⟨used, hused, hpath⟩, d, hd, htarget⟩, hcover⟩
    · exact .inl ⟨target, hown, hcover⟩
    · exact .inr ⟨used, hused, n, hpath, d, hd, target, htarget, hcover⟩
  · rintro (⟨target, hown, hcover⟩ | ⟨used, hused, n, hpath, d, hd, target, htarget, hcover⟩)
    · exact ⟨target, .inl hown, hcover⟩
    · exact ⟨target, .inr ⟨n, ⟨used, hused, hpath⟩, d, hd, htarget⟩, hcover⟩

namespace Workbook

/-! ## Wiring -/

/-- What a cell should be tied to. -/
def dependenciesAt (w : Workbook) (c : CellAddress) : Dependencies :=
  match w.store.formula? c with
  | some f => dependenciesOf w.names f
  | none => .none

/-- Every cell is tied to what its formula depends on, and the users of names are known. -/
structure WiredOK (w : Workbook) : Prop where
  dependencies : ∀ c, w.graph.dependencies c = .ofList (w.dependenciesAt c).cells
  ranges : ∀ c, w.watch.ranges c = (w.dependenciesAt c).ranges
  nameUsers : ∀ c, c ∈ w.nameUsers ↔ ∃ f, w.store.formula? c = some f ∧ f.names ≠ []

/-- **A cell is tied to exactly what its formula reads.** -/
theorem WiredOK.tied_iff {w : Workbook} (h : w.WiredOK) {c input : CellAddress} :
    w.Tied c input ↔ w.DependsOn c input := by
  rw [Tied, h.dependencies, h.ranges, mem_set_ofList, dependenciesAt, DependsOn]
  cases w.store.formula? c with
  | none => simp [Dependencies.none]
  | some f =>
    simp only [Option.some.injEq, exists_eq_left']
    exact Dependencies.records_iff

theorem dependenciesAt_congr {w u : Workbook} {c : CellAddress}
    (hf : u.store.formula? c = w.store.formula? c) (hn : u.names = w.names) :
    u.dependenciesAt c = w.dependenciesAt c := by
  rw [dependenciesAt, hf, hn, dependenciesAt]

theorem WiredOK.markDirty {w : Workbook} (h : w.WiredOK) (x : CellAddress) :
    (w.markDirty x).WiredOK where
  dependencies c := by
    rw [dependenciesAt_congr (formula?_markDirty w x c) rfl]
    exact h.dependencies c
  ranges c := by
    rw [dependenciesAt_congr (formula?_markDirty w x c) rfl]
    exact h.ranges c
  nameUsers c := by
    rw [formula?_markDirty]
    exact h.nameUsers c

/-- Replacing a cell keeps the wiring in order if the cell is tied to what it should be. -/
theorem WiredOK.edited {w u : Workbook} {x : CellAddress} {content : Option CellContent}
    {d : Dependencies} {usesNames : Bool} (h : w.WiredOK) (he : w.Edited u x content d usesNames)
    (hd : u.dependenciesAt x = d)
    (hu : usesNames = true ↔ ∃ f, u.store.formula? x = some f ∧ f.names ≠ []) : u.WiredOK := by
  have hother : ∀ c, c ≠ x → u.store.formula? c = w.store.formula? c := fun c hc =>
    Store.formula?_congr (he.get?_other c hc)
  refine ⟨fun c => ?_, fun c => ?_, fun c => ?_⟩ <;> by_cases hc : c = x
  · rw [hc, he.dependencies_self, hd]
  · rw [he.dependencies_other c hc, h.dependencies, dependenciesAt_congr (hother c hc) he.names]
  · rw [hc, he.ranges_self, hd]
  · rw [he.ranges_other c hc, h.ranges, dependenciesAt_congr (hother c hc) he.names]
  · rw [hc, he.nameUsers_self, hu]
  · rw [he.nameUsers_other c hc, h.nameUsers, hother c hc]

/-! ## Steps -/

theorem WiredOK.empty (policy : TextPolicy) : (Workbook.empty policy).WiredOK := by
  have hf : ∀ c, (Workbook.empty policy).store.formula? c = none := fun c => by
    simp [Workbook.empty, Store.empty, Store.formula?, Store.get?]
  refine ⟨fun c => ?_, fun c => ?_, fun c => ?_⟩
  · rw [dependenciesAt, hf]
    simp [Workbook.empty, Dependencies.none]
  · rw [dependenciesAt, hf]
    simp [Workbook.empty, Dependencies.none]
  · rw [hf]
    simp [Workbook.empty]

theorem WiredOK.place {w u : Workbook} {x : CellAddress} {content : Option CellContent}
    {d : Dependencies} {usesNames : Bool} (h : w.WiredOK) (hp : w.Placed x content d usesNames)
    (he : w.Edited u x content d usesNames) : (u.markDirty x).WiredOK := by
  refine (h.edited he ?_ ?_).markDirty x
  · rw [dependenciesAt]
    rcases hp.formula?_cases he with ⟨hf, rfl, -⟩ | ⟨f, hf, -, rfl, -⟩
    · rw [hf]
    · rw [hf, he.names]
  · rcases hp.formula?_cases he with ⟨hf, -, rfl⟩ | ⟨f, hf, -, -, rfl⟩ <;> simp [hf]

/-! ### Names -/

/-- A workbook after the formulas of some cells have been wired anew. -/
structure Rewired (w u : Workbook) (cells : List CellAddress) : Prop where
  formula? : ∀ c, u.store.formula? c = w.store.formula? c
  sheets : u.store.sheets = w.store.sheets
  names : u.names = w.names
  nameUsers : u.nameUsers = w.nameUsers
  policy : u.policy = w.policy
  /-- What is not dirty afterwards was not dirty before, is not among the cells, and is as it was. -/
  clean : ∀ c, c ∉ u.dirty → c ∉ w.dirty ∧ u.store.get? c = w.store.get? c ∧
    (c ∈ cells → w.store.formula? c = none)
  dependencies : ∀ c, u.graph.dependencies c =
    if c ∈ cells ∧ w.store.formula? c ≠ none then .ofList (w.dependenciesAt c).cells
    else w.graph.dependencies c
  ranges : ∀ c, u.watch.ranges c =
    if c ∈ cells ∧ w.store.formula? c ≠ none then (w.dependenciesAt c).ranges else w.watch.ranges c

theorem rewire_rewired (w : Workbook) (x : CellAddress) : w.Rewired (w.rewire x) [x] := by
  cases hf : w.store.formula? x with
  | none =>
    have hno : ∀ c, ¬ (c ∈ [x] ∧ w.store.formula? c ≠ none) := fun c hc =>
      hc.2 (List.mem_singleton.1 hc.1 ▸ hf)
    rw [rewire, hf]
    refine ⟨fun _ => rfl, rfl, rfl, rfl, rfl, fun c hc => ⟨hc, rfl, fun hx => ?_⟩,
      fun c => (if_neg (hno c)).symm, fun c => (if_neg (hno c)).symm⟩
    rw [List.mem_singleton.1 hx, hf]
  | some f =>
    obtain ⟨u, hu, he⟩ := rewire_edited hf
    have hd : w.dependenciesAt x = dependenciesOf w.names f := by rw [dependenciesAt, hf]
    have hyes : x ∈ [x] ∧ w.store.formula? x ≠ none := ⟨List.mem_singleton_self x, by simp [hf]⟩
    have hno : ∀ c, c ≠ x → ¬ (c ∈ [x] ∧ w.store.formula? c ≠ none) := fun c hc hm =>
      hc (List.mem_singleton.1 hm.1)
    have hget : ∀ c, u.store.get? c = w.store.get? c := fun c => by
      by_cases hc : c = x
      · rw [hc, he.get?_self]
      · exact he.get?_other c hc
    rw [hu]
    refine ⟨fun c => ?_, ?_, he.names, ?_, he.policy, fun c hc => ?_, fun c => ?_, fun c => ?_⟩
    · rw [formula?_markDirty, Store.formula?_congr (hget c)]
    · rw [sheets_markDirty, he.sheets]
    · refine Std.ExtTreeSet.ext_mem fun c => ?_
      by_cases hc : c = x
      · subst hc
        exact he.nameUsers_self.trans Std.ExtTreeSet.mem_iff_contains.symm
      · exact he.nameUsers_other c hc
    · have hcx : c ≠ x := by
        rintro rfl
        exact hc (self_mem_dirty_markDirty u c)
      obtain ⟨hclean, hsame⟩ := markDirty_clean hc
      exact ⟨he.dirty ▸ hclean, hsame.trans (hget c), fun hm => absurd (List.mem_singleton.1 hm) hcx⟩
    · by_cases hc : c = x
      · subst hc
        rw [if_pos hyes, hd]
        exact he.dependencies_self
      · rw [if_neg (hno c hc)]
        exact he.dependencies_other c hc
    · by_cases hc : c = x
      · subst hc
        rw [if_pos hyes, hd]
        exact he.ranges_self
      · rw [if_neg (hno c hc)]
        exact he.ranges_other c hc

theorem Rewired.refl (w : Workbook) : w.Rewired w [] :=
  ⟨fun _ => rfl, rfl, rfl, rfl, rfl, fun _ hc => ⟨hc, rfl, by simp⟩, fun _ => by simp,
    fun _ => by simp⟩

theorem Rewired.cons {w u v : Workbook} {x : CellAddress} {cells : List CellAddress}
    (h₁ : w.Rewired u [x]) (h₂ : u.Rewired v cells) : w.Rewired v (x :: cells) := by
  have hd : ∀ c, u.dependenciesAt c = w.dependenciesAt c := fun c =>
    dependenciesAt_congr (h₁.formula? c) h₁.names
  refine ⟨fun c => (h₂.formula? c).trans (h₁.formula? c), h₂.sheets.trans h₁.sheets,
    h₂.names.trans h₁.names, h₂.nameUsers.trans h₁.nameUsers, h₂.policy.trans h₁.policy,
    fun c hc => ?_, fun c => ?_, fun c => ?_⟩
  · obtain ⟨hu, hvu, hcells⟩ := h₂.clean c hc
    obtain ⟨hw, huw, hx⟩ := h₁.clean c hu
    refine ⟨hw, hvu.trans huw, fun hm => ?_⟩
    rcases List.mem_cons.1 hm with rfl | hm
    · exact hx (List.mem_singleton_self c)
    · rw [← h₁.formula?]
      exact hcells hm
  · rw [h₂.dependencies, h₁.dependencies, hd, h₁.formula?]
    grind
  · rw [h₂.ranges, h₁.ranges, hd, h₁.formula?]
    grind

theorem rewireAll_rewired : ∀ (cells : List CellAddress) (w : Workbook),
    w.Rewired (cells.foldl rewire w) cells
  | [], w => .refl w
  | x :: cells, w => (rewire_rewired w x).cons (rewireAll_rewired cells (w.rewire x))

/-- The users of names whose formulas reach a name. -/
def reaching (w : Workbook) (name : String) : List CellAddress :=
  w.nameUsers.toList.filter (w.reachesName name)

/-- What a bound name leaves to be wired anew. -/
def bound (w : Workbook) (name : String) (f : Formula) : Workbook :=
  { w with names := w.names.set name f }

theorem bindName_rewired (w : Workbook) (name : String) (f : Formula) :
    (w.bound name f).Rewired (w.bindName name f) ((w.bound name f).reaching name) :=
  rewireAll_rewired _ _

/-- To a formula that is not wired anew the bound name makes no difference. -/
theorem agreeOn_of_not_reaching {w : Workbook} (h : w.WiredOK) {name : String} {f g : Formula}
    {c : CellAddress} (hg : w.store.formula? c = some g)
    (hc : c ∉ (w.bound name f).reaching name) : (w.names.set name f).AgreeOn w.names g.names := by
  refine NameTable.agreeOn_set fun hn => hc (List.mem_filter.2 ⟨?_, ?_⟩)
  · refine Std.ExtTreeSet.mem_toList.2 ((h.nameUsers c).2 ⟨g, hg, fun hnil => ?_⟩)
    rw [hnil, NameTable.mem_closure] at hn
    simp at hn
  · have hg : (w.bound name f).store.formula? c = some g := hg
    rw [reachesName, hg]
    exact hn

theorem WiredOK.bindName {w : Workbook} (h : w.WiredOK) (name : String) (f : Formula) :
    (w.bindName name f).WiredOK := by
  have hr := w.bindName_rewired name f
  have hat : ∀ c, (w.bindName name f).dependenciesAt c = (w.bound name f).dependenciesAt c :=
    fun c => dependenciesAt_congr (hr.formula? c) hr.names
  -- a cell that is not wired anew is tied to what it should be already
  have hold : ∀ c, ¬ (c ∈ (w.bound name f).reaching name ∧ w.store.formula? c ≠ none) →
      (w.bound name f).dependenciesAt c = w.dependenciesAt c := fun c hc => by
    rw [dependenciesAt, dependenciesAt]
    change (match w.store.formula? c with | some g => _ | none => _) = _
    cases hg : w.store.formula? c with
    | none => rfl
    | some g =>
      have hagree := agreeOn_of_not_reaching h hg fun hm => hc ⟨hm, by simp [hg]⟩
      exact congrArg (fun r => Dependencies.ofReferences (g.references ++ r)) hagree.references_eq
  refine ⟨fun c => ?_, fun c => ?_, fun c => ?_⟩
  · rw [hat, hr.dependencies]
    split
    · rfl
    · rename_i hc
      rw [hold c hc]
      exact h.dependencies c
  · rw [hat, hr.ranges]
    split
    · rfl
    · rename_i hc
      rw [hold c hc]
      exact h.ranges c
  · rw [hr.nameUsers, hr.formula?]
    exact h.nameUsers c

theorem WiredOK.calculate {w : Workbook} (h : w.WiredOK) : w.calculate.1.WiredOK where
  dependencies c := by
    rw [dependenciesAt_congr (formula?_calculate w c) rfl]
    exact h.dependencies c
  ranges c := by
    rw [dependenciesAt_congr (formula?_calculate w c) rfl]
    exact h.ranges c
  nameUsers c := by
    rw [formula?_calculate]
    exact h.nameUsers c

theorem WiredOK.step {w u : Workbook} (h : w.WiredOK) (hs : w.Step u) : u.WiredOK := by
  cases hs with
  | stay => exact h
  | addSheet name => exact ⟨h.dependencies, h.ranges, h.nameUsers⟩
  | place hp he => exact h.place hp he
  | @bind f name _ => exact h.bindName name f
  | repolicy _ =>
    exact foldl_keeps (fun _ x h => h.markDirty x) _ ⟨h.dependencies, h.ranges, h.nameUsers⟩
  | calculate => exact h.calculate

theorem Reachable.wiredOK {w : Workbook} (h : w.Reachable) : w.WiredOK :=
  h.step_induction WiredOK.empty fun _ _ hw hs => hw.step hs

/-! ## Wiring to current definitions -/

theorem WiredOK.of_formula {w : Workbook} (h : w.WiredOK) {c : CellAddress} {f : Formula}
    (hf : w.store.formula? c = some f) :
    w.graph.dependencies c = .ofList (dependenciesOf w.names f).cells ∧
      w.watch.ranges c = (dependenciesOf w.names f).ranges := by
  have hat : w.dependenciesAt c = dependenciesOf w.names f := by rw [dependenciesAt, hf]
  rw [h.dependencies, h.ranges, hat]
  exact ⟨rfl, rfl⟩

theorem WiredOK.of_no_formula {w : Workbook} (h : w.WiredOK) {c : CellAddress}
    (hf : w.store.formula? c = none) : w.graph.dependencies c = ∅ ∧ w.watch.ranges c = [] := by
  have hat : w.dependenciesAt c = .none := by rw [dependenciesAt, hf]
  rw [h.dependencies, h.ranges, hat]
  exact ⟨rfl, rfl⟩

/-- **What a cell is tied to is what its formula and the definitions say now.** However a workbook
came about, a formula has the edges and watches the rectangles, in their order, that its references
and the names it reaches give; any other cell has none; and the users of names are the formulas that
use one. So when a name has been bound, a cell is tied to what its own references cover and to what
the references of those definitions cover that its names lead to now: however many names lie between,
and whether or not names lead back to themselves. -/
theorem wired_to_current_definitions (policy : TextPolicy) (operations : List Operation) :
    let w := (Workbook.empty policy).run operations
    (∀ c f, w.store.formula? c = some f →
      w.graph.dependencies c = .ofList (dependenciesOf w.names f).cells ∧
        w.watch.ranges c = (dependenciesOf w.names f).ranges) ∧
    (∀ c, w.store.formula? c = none → w.graph.dependencies c = ∅ ∧ w.watch.ranges c = []) ∧
    (∀ c, c ∈ w.nameUsers ↔ ∃ f, w.store.formula? c = some f ∧ f.names ≠ []) ∧
    ∀ name source, (w.defineName name source).2 = .ok () →
      let u := (w.defineName name source).1
      ∃ g, w.readFormula 0 source = .ok g ∧ u.names = w.names.set name g ∧
        ∀ c f, u.store.formula? c = some f → ∀ input, u.Tied c input ↔
          (∃ target ∈ f.references, target.asRange.contains input = true) ∨
          ∃ used ∈ f.names, ∃ n, ReflTransGen u.names.Uses used n ∧
            ∃ d, u.names.definitions[n]? = some d ∧
              ∃ target ∈ d.references, target.asRange.contains input = true := by
  intro w
  have hw : w.Reachable := ⟨policy, operations, rfl⟩
  have hwired := hw.wiredOK
  refine ⟨fun c f hf => hwired.of_formula hf, fun c hf => hwired.of_no_formula hf,
    hwired.nameUsers, fun name source hok => ?_⟩
  obtain ⟨g, -, -, hg, hu⟩ := defineName_ok hok
  have hwired : (w.defineName name source).1.WiredOK :=
    (hw.perform (.defineName name source)).wiredOK
  refine ⟨g, hg, ?_, fun c f hf input => ?_⟩
  · rw [hu]
    exact (w.bindName_rewired name g).names
  · rw [hwired.tied_iff, DependsOn, ← NameTable.reads_iff, hf]
    simp

/-- A name bound anew two names below the one that a formula uses, and circular from then on: the
formula is tied to what the new definition reads. -/
theorem wired_to_current_definitions_chain :
    let w := (Workbook.empty .skip).run [.appendSheet "S", .setCell ⟨0, 0, 3⟩ (.formula "=x"),
      .defineName "x" "y+A1", .defineName "y" "z", .defineName "z" "B1"]
    let u := (w.defineName "z" "C1+x").1
    let d : Formula := ⟨"C1+x", .binary .add (.reference (.cell ⟨0, 0, 2⟩)) (.name "x")⟩
    ((w.defineName "z" "C1+x").2 = .ok () ∧
        u.store.formula? ⟨0, 0, 3⟩ = some ⟨"=x", .name "x"⟩ ∧
        u.names.definitions["x"]?.map Formula.names = some ["y"] ∧
        u.names.definitions["y"]?.map Formula.names = some ["z"] ∧
        u.names.definitions["z"]? = some d) ∧ u.Tied ⟨0, 0, 3⟩ ⟨0, 0, 2⟩ := by
  refine (fun facts => ⟨facts, ?_⟩) (by cbv; exact ⟨rfl, rfl⟩)
  obtain ⟨hok, hf, hx, hy, hz⟩ := facts
  obtain ⟨-, -, -, hdefine⟩ := wired_to_current_definitions .skip _
  obtain ⟨g, -, -, htied⟩ := hdefine _ _ hok
  refine (htied _ _ hf _).2 (.inr ⟨"x", by decide, "z", ?_, _, hz, .cell ⟨0, 0, 2⟩, ?_, by decide⟩)
  · obtain ⟨dx, hdx, hnx⟩ := Option.map_eq_some_iff.1 hx
    obtain ⟨dy, hdy, hny⟩ := Option.map_eq_some_iff.1 hy
    have hxy := NameTable.uses_iff.2 ⟨dx, hdx, hnx ▸ List.mem_singleton_self "y"⟩
    have hyz := NameTable.uses_iff.2 ⟨dy, hdy, hny ▸ List.mem_singleton_self "z"⟩
    exact .head hxy (.single hyz)
  · decide

end Workbook

end Spreadsheet
