/-
What cannot be done, and that nothing comes of it. An operation is refused
for one of six causes (`Workbook.Refuses`), each of which is found before
anything is changed: a refused operation leaves the workbook behind as it
was. So the refused operations of a history can be left out of it
(`Workbook.run_accepted`), and every workbook has come about by operations
that succeeded.
-/
import Spreadsheet.Proofs.Parsing

namespace Spreadsheet

namespace Workbook

/-- The causes for which an operation is refused, and the failures that say so. -/
inductive Refuses (w : Workbook) : Operation → Failure → Prop
  /-- The name of a new sheet is in use. -/
  | sheet {name} : name ∈ w.store.sheets → Refuses w (.appendSheet name) (.duplicateSheet name)
  /-- The cell to set or to erase is on a sheet that does not exist. -/
  | cell {o cell} : o.target? = some (.cell cell) → w.store.sheetCount ≤ cell.sheet →
      Refuses w o (.unknownSheet ("#" ++ decimalText cell.sheet))
  /-- The formula for a cell cannot be read. -/
  | formula {cell source cause} : cell.sheet < w.store.sheetCount →
      Formula.parse source cell.sheet w.store.sheetNamed? = .error cause →
      Refuses w (.setCell cell (.formula source)) (.formula source cause)
  /-- The name to define is none. -/
  | name {name source} : isValidName name = false →
      Refuses w (.defineName name source) (.invalidName name)
  /-- There is no sheet yet that the labels of a definition could lie on. -/
  | nameWithoutSheet {name source} : isValidName name = true → w.store.sheetCount = 0 →
      Refuses w (.defineName name source) (.unknownSheet "#0")
  /-- The definition of a name cannot be read. -/
  | definition {name source cause} : isValidName name = true → 0 < w.store.sheetCount →
      Formula.parse source 0 w.store.sheetNamed? = .error cause →
      Refuses w (.defineName name source) (.formula source cause)

/-! ## The causes found -/

theorem checkSheet_eq_error {w : Workbook} {sheet : Nat} {failure : Failure} :
    w.checkSheet sheet = .error failure ↔
      w.store.sheetCount ≤ sheet ∧ failure = .unknownSheet ("#" ++ decimalText sheet) := by
  unfold checkSheet
  split
  · rename_i h
    have hlt : sheet < w.store.sheetCount := of_decide_eq_true h
    exact ⟨nofun, fun h => absurd h.1 (Nat.not_le.2 hlt)⟩
  · rename_i h
    have hle : w.store.sheetCount ≤ sheet := Nat.not_lt.1 fun hlt => h (decide_eq_true hlt)
    rw [Except.error.injEq, and_iff_right hle, eq_comm]

theorem readFormula_eq_error {w : Workbook} {sheet : Nat} {source : String} {failure : Failure} :
    w.readFormula sheet source = .error failure ↔
      ∃ cause, Formula.parse source sheet w.store.sheetNamed? = .error cause ∧
        failure = .formula source cause := by
  unfold readFormula
  cases Formula.parse source sheet w.store.sheetNamed? with
  | ok f => simp
  | error cause => simp [eq_comm]

theorem setFormula_eq_error {w : Workbook} {cell : CellAddress} {source : String}
    {failure : Failure} : (w.setFormula cell source).2 = .error failure ↔
      w.readFormula cell.sheet source = .error failure := by
  unfold setFormula
  cases w.readFormula cell.sheet source <;> simp

theorem setFormula_failed {w : Workbook} {cell : CellAddress} {source : String} {failure : Failure}
    (h : (w.setFormula cell source).2 = .error failure) : (w.setFormula cell source).1 = w := by
  rw [setFormula, setFormula_eq_error.1 h]

theorem appendSheet_eq_error {w : Workbook} {name : String} {failure : Failure} :
    ((Operation.appendSheet name).perform w).2 = .error failure ↔
      name ∈ w.store.sheets ∧ failure = .duplicateSheet name := by
  unfold Operation.perform appendSheet
  cases h : w.store.sheetNamed? name with
  | none =>
    have hnew := Store.sheetNamed?_eq_none.1 h
    simp [Except.map, h, hnew]
  | some sheet =>
    have hmem : name ∈ w.store.sheets := by
      by_contra hnew
      rw [Store.sheetNamed?_eq_none.2 hnew] at h
      cases h
    simp [Except.map, h, hmem, eq_comm]

theorem setCell_eq_error {w : Workbook} {cell : CellAddress} {input : CellInput}
    {failure : Failure} : (w.setCell cell input).2 = .error failure ↔
      w.checkSheet cell.sheet = .error failure ∨ w.checkSheet cell.sheet = .ok () ∧
        ∃ source, input = .formula source ∧ w.readFormula cell.sheet source = .error failure := by
  unfold setCell
  cases w.checkSheet cell.sheet with
  | error cause => simp
  | ok =>
    cases input with
    | number _ | text _ | boolean _ => simp
    | formula source => simp [setFormula_eq_error]

theorem eraseCell_eq_error {w : Workbook} {cell : CellAddress} {failure : Failure} :
    (w.eraseCell cell).2 = .error failure ↔ w.checkSheet cell.sheet = .error failure := by
  unfold eraseCell
  cases w.checkSheet cell.sheet <;> simp

theorem defineName_eq_error {w : Workbook} {name source : String} {failure : Failure} :
    (w.defineName name source).2 = .error failure ↔
      isValidName name = false ∧ failure = .invalidName name ∨ isValidName name = true ∧
        (w.checkSheet 0 = .error failure ∨
          w.checkSheet 0 = .ok () ∧ w.readFormula 0 source = .error failure) := by
  unfold defineName
  cases isValidName name with
  | false => simp [eq_comm]
  | true =>
    cases w.checkSheet 0 with
    | error cause => simp
    | ok => cases w.readFormula 0 source <;> simp

/-- **An operation fails if and only if it is refused**, with the failure that says why. -/
theorem perform_eq_error {w : Workbook} {o : Operation} {failure : Failure} :
    (o.perform w).2 = .error failure ↔ w.Refuses o failure := by
  constructor
  · intro h
    cases o with
    | appendSheet name =>
      obtain ⟨hname, rfl⟩ := appendSheet_eq_error.1 h
      exact .sheet hname
    | setCell cell input =>
      rcases setCell_eq_error.1 h with hcheck | ⟨hcheck, source, rfl, hsource⟩
      · obtain ⟨hcell, rfl⟩ := checkSheet_eq_error.1 hcheck
        exact .cell rfl hcell
      · obtain ⟨cause, hcause, rfl⟩ := readFormula_eq_error.1 hsource
        exact .formula (of_decide_eq_true (checkSheet_ok.1 hcheck)) hcause
    | eraseCell cell =>
      obtain ⟨hcell, rfl⟩ := checkSheet_eq_error.1 (eraseCell_eq_error.1 h)
      exact .cell rfl hcell
    | defineName name source =>
      rcases defineName_eq_error.1 h with ⟨hname, rfl⟩ | ⟨hname, hcheck | ⟨hcheck, hsource⟩⟩
      · exact .name hname
      · obtain ⟨hsheets, rfl⟩ := checkSheet_eq_error.1 hcheck
        exact .nameWithoutSheet hname (Nat.le_zero.1 hsheets)
      · obtain ⟨cause, hcause, rfl⟩ := readFormula_eq_error.1 hsource
        exact .definition hname (of_decide_eq_true (checkSheet_ok.1 hcheck)) hcause
    | setPolicy _ | calculate => cases h
  · intro h
    cases h with
    | sheet hname => exact appendSheet_eq_error.2 ⟨hname, rfl⟩
    | @cell o cell ho hcell =>
      have hcheck := checkSheet_eq_error.2 ⟨hcell, rfl⟩
      cases o with
      | setCell c input =>
        obtain rfl : c = cell := by simpa [Operation.target?] using ho
        exact setCell_eq_error.2 (.inl hcheck)
      | eraseCell c =>
        obtain rfl : c = cell := by simpa [Operation.target?] using ho
        exact eraseCell_eq_error.2 hcheck
      | defineName _ _ => simp [Operation.target?] at ho
      | appendSheet _ | setPolicy _ | calculate => cases ho
    | formula hcell hcause =>
      have hcheck := checkSheet_ok.2 (decide_eq_true hcell)
      exact setCell_eq_error.2 (.inr ⟨hcheck, _, rfl, readFormula_eq_error.2 ⟨_, hcause, rfl⟩⟩)
    | name hname => exact defineName_eq_error.2 (.inl ⟨hname, rfl⟩)
    | nameWithoutSheet hname hsheets =>
      have hcheck := checkSheet_eq_error.2 ⟨Nat.le_zero.2 hsheets, rfl⟩
      exact defineName_eq_error.2 (.inr ⟨hname, .inl hcheck⟩)
    | definition hname hsheets hcause =>
      have hcheck := checkSheet_ok.2 (decide_eq_true hsheets)
      have hsource := readFormula_eq_error.2 ⟨_, hcause, rfl⟩
      exact defineName_eq_error.2 (.inr ⟨hname, .inr ⟨hcheck, hsource⟩⟩)

/-! ## Histories without what was refused -/

/-- The operations of a list that succeed in their turn. -/
def accepted (w : Workbook) : List Operation → List Operation
  | [] => []
  | o :: rest =>
    match (o.perform w).2 with
    | .ok _ => o :: accepted (o.perform w).1 rest
    | .error _ => accepted w rest

/-- **What was refused can be left out**: the other operations of a list succeed one after another
and lead to the same workbook. -/
theorem run_accepted (operations : List Operation) : ∀ w : Workbook,
    w.Succeeds (w.accepted operations) ∧ w.run (w.accepted operations) = w.run operations := by
  induction operations with
  | nil => exact fun w => ⟨trivial, rfl⟩
  | cons o rest ih =>
    intro w
    rw [accepted, run_cons]
    cases h : (o.perform w).2 with
    | ok =>
      obtain ⟨hsucceeds, hrun⟩ := ih (o.perform w).1
      exact ⟨⟨h, hsucceeds⟩, hrun⟩
    | error failure =>
      have hstay : (o.perform w).1 = w := perform_failed (by simp [h])
      rw [hstay]
      exact ih w

/-- **Refused operations change nothing.** Whatever the workbook, an operation fails if and only if
there is one of the causes to refuse it, and the failure says which; when it fails, the workbook is
the one before: the same sheets, contents, results, edges, watched rectangles, names and circular
names, users of names, dirty cells and policy. The same holds of a formula that is put into a cell
of a sheet in hand. So a history may be freed from all that was refused: what is left succeeds in
turn and leads to the same workbook. -/
theorem refused_change_nothing (w : Workbook) :
    (∀ o failure, ((o.perform w).2 = .error failure ↔ w.Refuses o failure) ∧
      ((o.perform w).2 = .error failure → (o.perform w).1 = w)) ∧
    (∀ cell source failure,
      ((w.setFormula cell source).2 = .error failure ↔ ∃ cause,
        Formula.parse source cell.sheet w.store.sheetNamed? = .error cause ∧
          failure = .formula source cause) ∧
      ((w.setFormula cell source).2 = .error failure → (w.setFormula cell source).1 = w)) ∧
    ∀ operations,
      w.Succeeds (w.accepted operations) ∧ w.run (w.accepted operations) = w.run operations :=
  ⟨fun _ _ => ⟨perform_eq_error, fun h => perform_failed (by simp [h])⟩,
    fun _ _ _ => ⟨setFormula_eq_error.trans readFormula_eq_error, setFormula_failed⟩,
    fun operations => run_accepted operations w⟩

/-- Where a formula that uses a name has been calculated, three operations are refused: a formula
that breaks off, for the same cell; a definition that refers to a missing sheet, for the name; and a
sheet whose name is in use. Each leaves the workbook as it was, and a history of the three with an
edit among them leads to what the edit alone leads to. -/
theorem refused_change_nothing_calculated :
    let w := (Workbook.empty .skip).run [.appendSheet "S", .defineName "rate" "A1",
      .setCell ⟨0, 0, 1⟩ (.formula "=rate"), .calculate]
    let overwrite := Operation.setCell ⟨0, 0, 1⟩ (.formula "=rate+")
    let rename := Operation.defineName "rate" "T!A1"
    let edit := Operation.setCell ⟨0, 0, 0⟩ (.text "x")
    ((overwrite.perform w).2 = .error (.formula "=rate+" ⟨.unexpectedEnd, 6⟩) ∧
        (rename.perform w).2 = .error (.formula "T!A1" ⟨.unknownSheet "T", 0⟩) ∧
        ((Operation.appendSheet "S").perform w).2 = .error (.duplicateSheet "S") ∧
        w.accepted [overwrite, edit, rename, .appendSheet "S"] = [edit]) ∧
      (overwrite.perform w).1 = w ∧ (rename.perform w).1 = w ∧
      ((Operation.appendSheet "S").perform w).1 = w ∧
      w.run [overwrite, edit, rename, .appendSheet "S"] = w.run [edit] := by
  refine (fun facts => ⟨facts, ?_⟩) (by cbv)
  obtain ⟨hoverwrite, hrename, happend, haccepted⟩ := facts
  obtain ⟨hrefused, -, hleft⟩ := refused_change_nothing ((Workbook.empty .skip).run
    [.appendSheet "S", .defineName "rate" "A1", .setCell ⟨0, 0, 1⟩ (.formula "=rate"), .calculate])
  refine ⟨(hrefused _ _).2 hoverwrite, (hrefused _ _).2 hrename, (hrefused _ _).2 happend, ?_⟩
  rw [← haccepted]
  exact (hleft _).2.symm

end Workbook

end Spreadsheet
