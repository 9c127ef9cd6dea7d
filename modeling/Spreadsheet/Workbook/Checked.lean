/-
Workbooks where arithmetic is checked. Counts of cells overflow when a formula that refers to a
whole sheet is tied to what it depends on, and in evaluations (`Context.overflows`); a build that
checks arithmetic stops there. `Operation.overflows` says in which operations that is,
`Model.loadOverflows` in which models and `Command.overflows` in which commands;
`Workbook.runChecked` runs a list of operations unless it stops.
-/
import Spreadsheet.Command
import Spreadsheet.Formula.Overflow
import Spreadsheet.Workbook.History

namespace Spreadsheet

/-- Whether any step overflows when steps are taken one after another. -/
def overflowsAlong {σ β : Type} (step : σ → β → σ) (overflows : σ → β → Bool) (s : σ) :
    List β → Bool
  | [] => false
  | b :: rest =>
    match overflows s b with
    | true => true
    | false => overflowsAlong step overflows (step s b) rest

namespace Workbook

/-- Whether a count overflows when it is found out what a formula depends on. -/
def tieOverflows (names : NameTable) (f : Formula) : Bool :=
  (f.references ++ names.references f.names).any fun target => target.asRange.countOverflows

/-- Whether a count overflows when the users of a name are tied anew. -/
def bindOverflows (w : Workbook) (name : String) (f : Formula) : Bool :=
  let bound := { w with names := w.names.set name f }
  (bound.nameUsers.toList.filter (bound.reachesName name)).any fun cell =>
    (w.store.formula? cell).any (tieOverflows bound.names)

/-- Whether a count overflows in the calculation of one cell. -/
def cellOverflows (w : Workbook) (p : Progress) (cell : CellAddress) : Bool :=
  (p.store.formula? cell).any fun f => (p.store.context w.names w.policy).overflows f.tree

/-- Whether a count overflows in a calculation. -/
def calculationOverflows (w : Workbook) : Bool :=
  let start := w.runPlan { w.plan with order := [] }
  overflowsAlong w.calculateCell w.cellOverflows start w.plan.order

end Workbook

namespace Operation

/-- Whether a count overflows in an operation. An operation that fails does so before anything is
counted. -/
def overflows (w : Workbook) : Operation → Bool
  | setCell cell (.formula source) =>
    match w.checkSheet cell.sheet, w.readFormula cell.sheet source with
    | .ok (), .ok f => Workbook.tieOverflows w.names f
    | _, _ => false
  | defineName name source =>
    match w.checkSheet 0, w.readFormula 0 source with
    | .ok (), .ok f => isValidName name && w.bindOverflows name f
    | _, _ => false
  | calculate => w.calculationOverflows
  | appendSheet _ | setCell _ _ | eraseCell _ | setPolicy _ => false

end Operation

namespace Loaded

/-- Whether a count overflows when a name is bound. -/
def nameOverflows (l : Loaded) (entry : String × String) : Bool :=
  (Operation.defineName entry.1 entry.2).overflows l.workbook

/-- Whether a count overflows when an entry of a sheet is written. -/
def entryOverflows (sheet : Nat) (l : Loaded) (entry : String × CellEntry) : Bool :=
  (parseLabel entry.1).any fun position =>
    (Operation.setCell ⟨sheet, position.1, position.2⟩ entry.2.toInput).overflows l.workbook

end Loaded

/-- Whether a count overflows when a model is loaded. -/
def Model.loadOverflows (m : Model) : Bool :=
  match appendSheets (.empty m.policy) m.sheets with
  | .error _ => false
  | .ok w =>
    overflowsAlong Loaded.addName Loaded.nameOverflows ⟨w, []⟩ m.names.toList ||
      overflowsAlong Loaded.addCells
        (fun l sheet => overflowsAlong (Loaded.addCell sheet.2 sheet.1.name)
          (Loaded.entryOverflows sheet.2) l sheet.1.cells.toList)
        (m.names.toList.foldl Loaded.addName ⟨w, []⟩) m.sheets.zipIdx

namespace Command

/-- Whether a count overflows when the model in a file is loaded, and then, if it has no problems, in
the calculation that follows, if one does. -/
def fileOverflows (files : Files) (file : String) (calculated : Workbook → Option Workbook) : Bool :=
  match (files file).mapError Failure.file |>.bind Model.parse with
  | .error _ => false
  | .ok model =>
    model.loadOverflows ||
      match model.load.bind Loaded.complete with
      | .ok w => (calculated w).any Workbook.calculationOverflows
      | .error _ => false

/-- Whether a count overflows when the models in files are loaded until one of them cannot be. -/
def validateOverflows (files : Files) : List String → Bool
  | [] => false
  | file :: rest =>
    fileOverflows files file (fun _ => none) ||
      match (loadModel files file).run fun _ => "" with
      | (.ok _, _) => validateOverflows files rest
      | (.error _, _) => false

/-- Whether a count overflows in a command. -/
def overflows (files : Files) : Command → Bool
  | calculate file _ _ policy => fileOverflows files file fun w => (policy.map w.setPolicy).getD w
  | validate names => validateOverflows files names
  | audit file cell => fileOverflows files file fun w => (w.locate cell).toOption.map fun _ => w
  | sort _ => false

end Command

namespace Workbook

/-- The workbook after a list of operations, or nothing if a count has overflowed. -/
def runChecked (w : Workbook) : List Operation → Option Workbook
  | [] => some w
  | operation :: rest =>
    match operation.overflows w with
    | true => none
    | false => (operation.perform w).1.runChecked rest

/-- **A build that checks arithmetic computes the same** unless it stops. -/
theorem run_of_runChecked {w u : Workbook} {operations : List Operation}
    (h : w.runChecked operations = some u) : w.run operations = u := by
  induction operations generalizing w with
  | nil => exact Option.some.inj h
  | cons operation rest ih =>
    rw [runChecked] at h
    split at h
    · cases h
    · exact ih h

end Workbook

end Spreadsheet
