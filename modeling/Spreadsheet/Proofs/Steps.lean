/-
What operations do. Whatever is asked for, a workbook stays as it is, gets
one more sheet, has one cell replaced and marked, a name bound, its policy
changed, or is calculated (`Workbook.Step`, `perform_step`). What each of
these keeps holds of every workbook that can come about
(`Reachable.step_induction`).
-/
import Spreadsheet.Workbook.History
import Spreadsheet.Proofs.Pass
import Spreadsheet.Proofs.Reading

namespace Spreadsheet

/-- What an operation puts into the cell that it changes. -/
def Operation.content (w : Workbook) : Operation → Option CellContent
  | setCell _ (.number x) => some (.number x)
  | setCell _ (.text s) => some (.text s)
  | setCell _ (.boolean b) => some (.boolean b)
  | setCell cell (.formula source) =>
    (w.readFormula cell.sheet source).toOption.map fun f => .formula f none
  | appendSheet _ | eraseCell _ | defineName _ _ | setPolicy _ | calculate => none

namespace Workbook

/-- What operations put into a cell, what the cell is tied to then, and whether it uses names:
nothing, a literal, or a formula that has been read and not calculated. -/
inductive Placed (w : Workbook) (x : CellAddress) :
    Option CellContent → Dependencies → Bool → Prop
  | nothing : Placed w x none .none false
  | literal {content} : content.isFormula = false → Placed w x (some content) .none false
  | formula {f} : w.readFormula x.sheet f.source = .ok f →
      Placed w x (some (.formula f none)) (dependenciesOf w.names f) (!f.names.isEmpty)

/-- What an operation makes of a workbook. -/
inductive Step (w : Workbook) : Workbook → Prop
  | stay : Step w w
  | addSheet (name : String) : w.store.sheetNamed? name = none →
      Step w { w with store := w.store.addSheet name }
  | place {u x content d usesNames} : w.Placed x content d usesNames →
      w.Edited u x content d usesNames → Step w (u.markDirty x)
  | bind {f} (name : String) : w.readFormula 0 f.source = .ok f → Step w (w.bindName name f)
  | repolicy {policy} : policy ≠ w.policy →
      Step w (w.formulaCells.foldl markDirty { w with policy := policy })
  | calculate : Step w w.calculate.1

theorem checkSheet_ok {w : Workbook} {sheet : Nat} :
    w.checkSheet sheet = .ok () ↔ w.store.hasSheet sheet = true := by
  unfold checkSheet
  split <;> simp_all

theorem readFormula_eq_ok {w : Workbook} {sheet : Nat} {source : String} {f : Formula} :
    w.readFormula sheet source = .ok f ↔
      Formula.parse source sheet w.store.sheetNamed? = .ok f := by
  unfold readFormula
  cases Formula.parse source sheet w.store.sheetNamed? with
  | error cause => simp
  | ok g => simp

theorem source_of_readFormula {w : Workbook} {sheet : Nat} {source : String} {f : Formula}
    (h : w.readFormula sheet source = .ok f) : f.source = source := by
  simp only [readFormula_eq_ok, Formula.parse, bind_eq_ok] at h
  obtain ⟨tokens, -, tree, -, h⟩ := h
  cases h
  rfl

/-! ## Operations that fail and operations that succeed -/

theorem perform_failed {w : Workbook} {o : Operation} :
    (o.perform w).2 ≠ .ok () → (o.perform w).1 = w := by
  cases o with
  | appendSheet name =>
    simp only [Operation.perform, appendSheet]
    split
    · exact fun _ => rfl
    · exact fun h => absurd rfl h
  | setCell x input =>
    simp only [Operation.perform, setCell]
    split
    · exact fun _ => rfl
    · cases input with
      | number _ | text _ | boolean _ => exact fun h => absurd rfl h
      | formula source =>
        simp only [setFormula]
        split
        · exact fun h => absurd rfl h
        · exact fun _ => rfl
  | eraseCell x =>
    simp only [Operation.perform, eraseCell]
    split
    · exact fun _ => rfl
    · exact fun h => absurd rfl h
  | defineName name source =>
    simp only [Operation.perform, defineName]
    split
    · split
      · exact fun _ => rfl
      · split
        · exact fun h => absurd rfl h
        · exact fun _ => rfl
    · exact fun _ => rfl
  | setPolicy _ | calculate => exact fun h => absurd rfl h

theorem setCell_ok {w : Workbook} {x : CellAddress} {input : CellInput}
    (h : (w.setCell x input).2 = .ok ()) : ∃ content d usesNames,
      w.store.hasSheet x.sheet = true ∧ (Operation.setCell x input).content w = some content ∧
        w.Placed x (some content) d usesNames ∧
          (w.setCell x input).1 = w.write x content usesNames d := by
  unfold setCell at h ⊢
  split at h
  · cases h
  · rename_i hx
    have hx := checkSheet_ok.1 hx
    cases input with
    | number _ | text _ | boolean _ => exact ⟨_, _, _, hx, rfl, .literal rfl, rfl⟩
    | formula source =>
      simp only [setFormula] at h ⊢
      split at h
      · rename_i f hf
        have hp := Placed.formula (x := x) ((source_of_readFormula hf).symm ▸ hf)
        exact ⟨_, _, _, hx, by simp [Operation.content, hf, Except.toOption], hp, rfl⟩
      · cases h

/-- **An edit of a cell that succeeds replaces the cell and marks it.** -/
theorem perform_cell {w : Workbook} {o : Operation} {x : CellAddress}
    (ht : o.target? = some (.cell x)) (h : (o.perform w).2 = .ok ()) : ∃ u d usesNames,
      (o.perform w).1 = u.markDirty x ∧ w.Placed x (o.content w) d usesNames ∧
        w.Edited u x (o.content w) d usesNames := by
  cases o with
  | appendSheet _ | setPolicy _ | calculate => cases ht
  | defineName _ _ => simp [Operation.target?] at ht
  | setCell y input =>
    obtain rfl : y = x := by simpa [Operation.target?] using ht
    obtain ⟨content, d, usesNames, hy, hcontent, hp, hw⟩ := setCell_ok h
    obtain ⟨u, hu, he⟩ := write_edited hy content usesNames d
    exact ⟨u, d, usesNames, hw.trans hu, hcontent ▸ hp, hcontent ▸ he⟩
  | eraseCell y =>
    obtain rfl : y = x := by simpa [Operation.target?] using ht
    obtain ⟨u, hu, he⟩ := clearCell_edited w y
    refine ⟨u, .none, false, ?_, .nothing, he⟩
    simp only [Operation.perform, eraseCell] at h ⊢
    split at h
    · cases h
    · exact hu

theorem defineName_ok {w : Workbook} {name source : String}
    (h : (w.defineName name source).2 = .ok ()) :
    ∃ f, isValidName name = true ∧ w.checkSheet 0 = .ok () ∧ w.readFormula 0 source = .ok f ∧
      (w.defineName name source).1 = w.bindName name f := by
  unfold defineName at h ⊢
  split at h
  · rename_i hvalid
    split at h
    · cases h
    · rename_i hsheet
      split at h
      · rename_i f hf
        exact ⟨f, hvalid, hsheet, hf, by rw [if_pos hvalid]⟩
      · cases h
  · cases h

/-- **Every operation is a step**, whether it succeeds or fails. -/
theorem perform_step (w : Workbook) (o : Operation) : w.Step (o.perform w).1 := by
  by_cases h : (o.perform w).2 = .ok ()
  · have cell : ∀ {x}, o.target? = some (.cell x) → w.Step (o.perform w).1 := fun ht => by
      obtain ⟨u, d, usesNames, hu, hp, he⟩ := perform_cell ht h
      exact hu ▸ .place hp he
    cases o with
    | appendSheet name =>
      simp only [Operation.perform, appendSheet]
      split
      · exact .stay
      · rename_i hnew
        exact .addSheet name hnew
    | setCell _ _ | eraseCell _ => exact cell rfl
    | defineName name source =>
      obtain ⟨f, -, -, hf, hu⟩ := defineName_ok h
      rw [Operation.perform, hu]
      exact .bind name ((source_of_readFormula hf).symm ▸ hf)
    | setPolicy policy =>
      simp only [Operation.perform, setPolicy]
      split
      · exact .stay
      · exact .repolicy ‹_›
    | calculate => exact .calculate
  · rw [perform_failed h]
    exact .stay

/-- What holds of workbooks without sheets and is kept by every step holds of all reachable
workbooks. -/
theorem Reachable.step_induction {P : Workbook → Prop} (empty : ∀ policy, P (.empty policy))
    (step : ∀ w u : Workbook, P w → w.Step u → P u) {w : Workbook} (h : w.Reachable) : P w :=
  h.induction empty fun w operation hw => step w _ hw (w.perform_step operation)

theorem foldl_keeps {P : Workbook → Prop} {change : Workbook → CellAddress → Workbook}
    (hchange : ∀ w x, P w → P (change w x)) :
    ∀ (cells : List CellAddress) {w : Workbook}, P w → P (cells.foldl change w)
  | [], _, h => h
  | x :: cells, w, h => foldl_keeps hchange cells (hchange w x h)

/-! ## The cell replaced -/

theorem Placed.result?_eq {w u : Workbook} {x : CellAddress} {content : Option CellContent}
    {d : Dependencies} {usesNames : Bool} (hp : w.Placed x content d usesNames)
    (he : w.Edited u x content d usesNames) : u.store.result? x = none := by
  rw [Store.result?, he.get?_self]
  cases hp with
  | nothing => rfl
  | @literal content h =>
    cases content with
    | formula => cases h
    | number _ | text _ | boolean _ => rfl
  | formula => rfl

theorem Placed.withResult_none {w : Workbook} {x : CellAddress} {content : Option CellContent}
    {d : Dependencies} {usesNames : Bool} (hp : w.Placed x content d usesNames) :
    content.map (CellContent.withResult none) = content := by
  cases hp with
  | nothing => rfl
  | @literal content h =>
    cases content with
    | formula => cases h
    | number _ | text _ | boolean _ => rfl
  | formula => rfl

/-- A formula that is placed into a cell has been read there, is tied to what it depends on, and is
known as a user of names if it is one; any other cell is tied to nothing. -/
theorem Placed.formula?_cases {w u : Workbook} {x : CellAddress} {content : Option CellContent}
    {d : Dependencies} {usesNames : Bool} (hp : w.Placed x content d usesNames)
    (he : w.Edited u x content d usesNames) :
    u.store.formula? x = none ∧ d = .none ∧ usesNames = false ∨
      ∃ f, u.store.formula? x = some f ∧ w.readFormula x.sheet f.source = .ok f ∧
        d = dependenciesOf w.names f ∧ usesNames = !f.names.isEmpty := by
  rw [Store.formula?, he.get?_self]
  cases hp with
  | nothing => exact .inl ⟨rfl, rfl, rfl⟩
  | @literal content h =>
    cases content with
    | formula => cases h
    | number _ | text _ | boolean _ => exact .inl ⟨rfl, rfl, rfl⟩
  | formula hread => exact .inr ⟨_, rfl, hread, rfl, rfl⟩

end Workbook

end Spreadsheet
