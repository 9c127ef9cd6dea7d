/-
The life of a workbook: what can be done to it, and the workbooks that can come of it. An operation
that fails is part of a history like any other. `Operation.isEdit` tells the operations that change
contents and names from those that append sheets, change the policy or calculate, and
`Operation.target?` says which cell or name it is that an edit changes.
-/
import Spreadsheet.Workbook.Edit
import Spreadsheet.Workbook.Recalc

namespace Spreadsheet

/-- What can be done to a workbook. -/
inductive Operation where
  | appendSheet (name : String)
  | setCell (cell : CellAddress) (input : CellInput)
  | eraseCell (cell : CellAddress)
  | defineName (name source : String)
  | setPolicy (policy : TextPolicy)
  | calculate
deriving Inhabited

/-- What an edit changes: the content of a cell, or what a name is bound to. -/
inductive EditTarget where
  | cell (address : CellAddress)
  | name (name : String)
deriving DecidableEq

namespace Operation

/-- The workbook that an operation leaves behind, and whether it failed. -/
def perform (w : Workbook) : Operation → Workbook × Except Failure Unit
  | appendSheet name => ((w.appendSheet name).1, (w.appendSheet name).2.map fun _ => ())
  | setCell cell input => w.setCell cell input
  | eraseCell cell => w.eraseCell cell
  | defineName name source => w.defineName name source
  | setPolicy policy => (w.setPolicy policy, .ok ())
  | calculate => (w.calculate.1, .ok ())

/-- Whether an operation changes the content of a cell or the definition of a name. -/
def isEdit : Operation → Bool
  | setCell _ _ | eraseCell _ | defineName _ _ => true
  | appendSheet _ | setPolicy _ | calculate => false

/-- What an operation changes, if it is an edit. -/
def target? : Operation → Option EditTarget
  | setCell cell _ | eraseCell cell => some (.cell cell)
  | defineName name _ => some (.name name)
  | appendSheet _ | setPolicy _ | calculate => none

/-- The last of some operations that changes a target. -/
def lastOn (target : EditTarget) (operations : List Operation) : Option Operation :=
  operations.reverse.find? fun operation => operation.target? == some target

end Operation

namespace Workbook

/-- The workbook after a list of operations. -/
def run (w : Workbook) (operations : List Operation) : Workbook :=
  operations.foldl (fun w operation => (operation.perform w).1) w

/-- Whether every operation of a list succeeds in its turn. -/
def Succeeds (w : Workbook) : List Operation → Prop
  | [] => True
  | operation :: rest =>
    (operation.perform w).2 = .ok () ∧ Succeeds (operation.perform w).1 rest

/-- Whether operations can lead to a workbook from one without sheets. -/
def Reachable (w : Workbook) : Prop :=
  ∃ policy operations, w = (Workbook.empty policy).run operations

theorem run_nil (w : Workbook) : w.run [] = w := rfl

theorem run_cons (w : Workbook) (operation : Operation) (rest : List Operation) :
    w.run (operation :: rest) = (operation.perform w).1.run rest := rfl

theorem run_append (w : Workbook) (first second : List Operation) :
    w.run (first ++ second) = (w.run first).run second :=
  List.foldl_append

theorem Reachable.perform {w : Workbook} (h : w.Reachable) (operation : Operation) :
    (operation.perform w).1.Reachable := by
  obtain ⟨policy, operations, rfl⟩ := h
  exact ⟨policy, operations ++ [operation], by rw [run_append, run_cons, run_nil]⟩

/-- What holds of workbooks without sheets and is kept by every operation holds of all reachable
workbooks. -/
theorem Reachable.induction {P : Workbook → Prop} (empty : ∀ policy, P (.empty policy))
    (step : ∀ (w : Workbook) (operation : Operation), P w → P (operation.perform w).1)
    {w : Workbook} (h : w.Reachable) : P w := by
  obtain ⟨policy, operations, rfl⟩ := h
  suffices ∀ w : Workbook, P w → P (w.run operations) from this _ (empty policy)
  induction operations with
  | nil => exact fun _ hw => hw
  | cons operation rest ih => exact fun w hw => ih _ (step w operation hw)

end Workbook

end Spreadsheet
