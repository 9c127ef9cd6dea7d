/-
The contents of the sheets. Only occupied cells are kept, in ascending order of their addresses and
all of them on sheets that exist; a write beside the sheets is dropped. A boolean counts as one or
zero wherever a number is needed.
-/
import Spreadsheet.Failure
import Spreadsheet.Formula.Eval
import Spreadsheet.NameTable

namespace Spreadsheet

/-- What an occupied cell holds. A formula has a result once it has been calculated. -/
inductive CellContent where
  | number (value : Float)
  | text (content : String)
  | boolean (truth : Bool)
  | formula (formula : Formula) (result : Option CellResult)
deriving Inhabited

/-- The number that a boolean counts as. -/
def truthNumber (truth : Bool) : Float :=
  if truth then 1 else 0

namespace CellContent

/-- The kind of a content. -/
def kind : CellContent → CellKind
  | number _ => .numeric
  | text _ => .string
  | boolean _ => .boolean
  | formula _ _ => .formula

/-- Whether a content is a formula. -/
def isFormula : CellContent → Bool
  | formula _ _ => true
  | number _ | text _ | boolean _ => false

/-- A content with a result in place of the one it had; only formulas have results. -/
def withResult (result : Option CellResult) : CellContent → CellContent
  | formula f _ => formula f result
  | number x => number x
  | text s => text s
  | boolean b => boolean b

/-- What formulas see of a result. A cell on a cycle and a cell not calculated are unavailable,
any other fault is handed on. -/
def resultValue : Option CellResult → Except Fault Value
  | some (.number x) => .ok (.number x)
  | some (.text s) => .ok (.text s)
  | some (.error .circularReference) => .error .refUnavailable
  | some (.error fault) => .error fault
  | none => .error .refUnavailable

/-- What formulas see of a content. -/
def value : CellContent → Except Fault Value
  | number x => .ok (.number x)
  | text s => .ok (.text s)
  | boolean b => .ok (.number (truthNumber b))
  | formula _ result => resultValue result

end CellContent

/-- The sheets and the contents of their cells. -/
structure Store where
  /-- The names of the sheets in order. -/
  sheets : List String
  /-- The occupied cells. -/
  cells : Std.ExtTreeMap CellAddress CellContent
  /-- Only sheets that exist have cells. -/
  sheet_lt : ∀ c ∈ cells, c.sheet < sheets.length

namespace Store

/-- No sheets. -/
def empty : Store where
  sheets := []
  cells := ∅
  sheet_lt := by simp

/-- The number of sheets. -/
def sheetCount (s : Store) : Nat :=
  s.sheets.length

/-- Whether a sheet exists. -/
def hasSheet (s : Store) (sheet : Nat) : Bool :=
  decide (sheet < s.sheets.length)

/-- The name of a sheet. -/
def sheetName? (s : Store) (sheet : Nat) : Option String :=
  s.sheets[sheet]?

/-- The first sheet with a name. -/
def sheetNamed? (s : Store) (name : String) : Option Nat :=
  s.sheets.findIdx? (· == name)

/-- The store with one more sheet, which is empty and the last. -/
def addSheet (s : Store) (name : String) : Store where
  sheets := s.sheets ++ [name]
  cells := s.cells
  sheet_lt c h := by
    have := s.sheet_lt c h
    simp only [List.length_append, List.length_singleton]
    omega

/-- The label of a cell with its sheet before it, if the sheet exists. -/
def qualifiedLabel (s : Store) (cell : CellAddress) : String :=
  match s.sheetName? cell.sheet with
  | some name => quoteSheetName name ++ "!" ++ cell.label
  | none => cell.label

/-- The content of a cell. -/
def get? (s : Store) (cell : CellAddress) : Option CellContent :=
  s.cells[cell]?

/-- The store with a content in a cell; unchanged if the cell's sheet does not exist. -/
def set (s : Store) (cell : CellAddress) (content : CellContent) : Store :=
  if h : cell.sheet < s.sheets.length then
    { sheets := s.sheets
      cells := s.cells.insert cell content
      sheet_lt := by
        intro c hc
        rw [Std.ExtTreeMap.mem_insert, Std.LawfulEqCmp.compare_eq_iff_eq] at hc
        rcases hc with rfl | hc
        · exact h
        · exact s.sheet_lt c hc }
  else s

/-- The store with a cell emptied. -/
def erase (s : Store) (cell : CellAddress) : Store where
  sheets := s.sheets
  cells := s.cells.erase cell
  sheet_lt c h := s.sheet_lt c (Std.ExtTreeMap.mem_of_mem_erase h)

@[simp] theorem sheets_set (s : Store) (cell : CellAddress) (content : CellContent) :
    (s.set cell content).sheets = s.sheets := by
  unfold set
  split <;> rfl

@[simp] theorem sheets_erase (s : Store) (cell : CellAddress) :
    (s.erase cell).sheets = s.sheets := rfl

theorem get?_set_self {s : Store} {cell : CellAddress} (h : s.hasSheet cell.sheet = true)
    (content : CellContent) : (s.set cell content).get? cell = some content := by
  rw [set, dif_pos (of_decide_eq_true h), get?, Std.ExtTreeMap.getElem?_insert_self]

theorem get?_set_other (s : Store) {cell other : CellAddress} (h : cell ≠ other)
    (content : CellContent) : (s.set cell content).get? other = s.get? other := by
  have hc : compare cell other ≠ .eq := fun he => h (Std.LawfulEqCmp.eq_of_compare he)
  unfold set
  split
  · rw [get?, Std.ExtTreeMap.getElem?_insert, if_neg hc, get?]
  · rfl

theorem set_eq_self {s : Store} {cell : CellAddress} (h : s.hasSheet cell.sheet = false)
    (content : CellContent) : s.set cell content = s := by
  rw [set, dif_neg (of_decide_eq_false h)]

@[simp] theorem get?_erase_self (s : Store) (cell : CellAddress) :
    (s.erase cell).get? cell = none := by
  rw [erase, get?, Std.ExtTreeMap.getElem?_erase_self]

theorem get?_erase_other (s : Store) {cell other : CellAddress} (h : cell ≠ other) :
    (s.erase cell).get? other = s.get? other := by
  have hc : compare cell other ≠ .eq := fun he => h (Std.LawfulEqCmp.eq_of_compare he)
  rw [erase, get?, Std.ExtTreeMap.getElem?_erase, if_neg hc, get?]

/-- Stores are told apart by the names of their sheets and the contents of their cells. -/
theorem ext_get? {s t : Store} (hsheets : s.sheets = t.sheets) (hget : ∀ c, s.get? c = t.get? c) :
    s = t := by
  have hcells : s.cells = t.cells := Std.ExtTreeMap.ext_getElem? hget
  cases s; cases t; simp_all

theorem hasSheet_of_get? {s : Store} {cell : CellAddress} {content : CellContent}
    (h : s.get? cell = some content) : s.hasSheet cell.sheet = true :=
  decide_eq_true (s.sheet_lt cell (Std.ExtTreeMap.mem_iff_isSome_getElem?.2 (by
    rw [get?] at h; simp [h])))

/-- Whether a cell holds a formula. -/
def isFormula (s : Store) (cell : CellAddress) : Bool :=
  (s.get? cell).any CellContent.isFormula

/-- What a cell holds. -/
def kind (s : Store) (cell : CellAddress) : CellKind :=
  ((s.get? cell).map CellContent.kind).getD .empty

/-- The formula of a cell. -/
def formula? (s : Store) (cell : CellAddress) : Option Formula :=
  match s.get? cell with
  | some (.formula f _) => some f
  | _ => none

/-- The text of a cell's formula. -/
def formulaSource? (s : Store) (cell : CellAddress) : Option String :=
  (s.formula? cell).map Formula.source

/-- The result of a cell's formula, if there is a formula and it has been calculated. -/
def result? (s : Store) (cell : CellAddress) : Option CellResult :=
  match s.get? cell with
  | some (.formula _ result) => result
  | _ => none

/-- The store with a cell's result replaced; only formulas have results. -/
def putResult (s : Store) (cell : CellAddress) (result : Option CellResult) : Store :=
  match s.get? cell with
  | some (.formula f _) => s.set cell (.formula f result)
  | _ => s

theorem get?_putResult (s : Store) (cell other : CellAddress) (result : Option CellResult) :
    (s.putResult cell result).get? other =
      if other = cell then (s.get? cell).map (CellContent.withResult result) else s.get? other := by
  unfold putResult
  by_cases h : other = cell
  · subst h
    rw [if_pos rfl]
    split
    · rename_i f old hget
      rw [get?_set_self (hasSheet_of_get? hget), hget]
      rfl
    · rename_i hno
      cases hget : s.get? other with
      | none => rfl
      | some content =>
        cases content with
        | formula f old => exact absurd hget (hno f old)
        | number _ | text _ | boolean _ => rfl
  · rw [if_neg h]
    split
    · exact get?_set_other s (fun he => h he.symm) _
    · rfl

@[simp] theorem sheets_putResult (s : Store) (cell : CellAddress) (result : Option CellResult) :
    (s.putResult cell result).sheets = s.sheets := by
  unfold putResult
  split <;> simp

/-- The store with a result for a cell's formula. -/
def setResult (s : Store) (cell : CellAddress) (result : CellResult) : Store :=
  s.putResult cell (some result)

/-- The store without a result for a cell's formula. -/
def invalidate (s : Store) (cell : CellAddress) : Store :=
  s.putResult cell none

/-- The occupied cells of a sheet, row by row. -/
def usedCells (s : Store) (sheet : Nat) : List CellAddress :=
  s.cells.keys.filter fun c => c.sheet == sheet

/-- The occupied cells of a range, row by row: of the cells between its corners in the order of
addresses, those in its columns. -/
def occupiedIn (s : Store) (r : Range) : List CellAddress :=
  let fromFirst := s.cells.keys.dropWhile fun c =>
    compare c ⟨r.sheet, r.firstRow, r.firstCol⟩ == .lt
  let window := fromFirst.takeWhile fun c =>
    compare c ⟨r.sheet, r.lastRow, r.lastCol⟩ != .gt
  window.filter fun c => decide (r.firstCol ≤ c.col) && decide (c.col ≤ r.lastCol)

/-- What formulas see of a cell. -/
def value (s : Store) (cell : CellAddress) : Except Fault Value :=
  match s.get? cell with
  | some content => content.value
  | none => .ok .empty

/-- Reads a range by looking up its occupied cells only; the others are counted, as what is left of
the number of all, which wraps round for a whole sheet. -/
def readOccupied (s : Store) (r : Range) : Except Fault RangeReading :=
  ((s.occupiedIn r).mapM s.value).map fun read =>
    let values := read.filter fun v => !v.isEmpty
    ⟨values, r.cellCount - UInt64.ofNat values.length⟩

/-- The context in which the formulas of a store are evaluated. -/
def context (s : Store) (names : NameTable) (policy : TextPolicy) : Context where
  lookup := s.value
  readRange := s.readOccupied
  policy := policy
  definition := names.expression
  nesting := names.size

/-- A cell read as a number. An empty cell is zero. -/
def number (s : Store) (cell : CellAddress) : Except Failure Float :=
  let label := s.qualifiedLabel cell
  match s.get? cell with
  | none => .ok 0
  | some (.number x) => .ok x
  | some (.boolean b) => .ok (truthNumber b)
  | some (.text _) => .error (.typeMismatch label .numeric .string)
  | some (.formula _ none) => .error (.staleValue label)
  | some (.formula _ (some (.number x))) => .ok x
  | some (.formula _ (some (.text _))) => .error (.typeMismatch label .numeric .string)
  | some (.formula _ (some (.error fault))) => .error (.ofFault label fault)

/-- A cell read as a text. An empty cell is the empty text. -/
def text (s : Store) (cell : CellAddress) : Except Failure String :=
  let label := s.qualifiedLabel cell
  match s.get? cell with
  | none => .ok ""
  | some (.text t) => .ok t
  | some (.number _) => .error (.typeMismatch label .string .numeric)
  | some (.boolean _) => .error (.typeMismatch label .string .boolean)
  | some (.formula _ none) => .error (.staleValue label)
  | some (.formula _ (some (.text t))) => .ok t
  | some (.formula _ (some (.number _))) => .error (.typeMismatch label .string .numeric)
  | some (.formula _ (some (.error fault))) => .error (.ofFault label fault)

/-- A cell read as a truth value. A number is true unless it is zero. -/
def truth (s : Store) (cell : CellAddress) : Except Failure Bool :=
  match s.get? cell with
  | none => .ok false
  | some (.boolean b) => .ok b
  | some (.text _) => .error (.typeMismatch (s.qualifiedLabel cell) .boolean .string)
  | some (.number _) | some (.formula _ _) => (s.number cell).map fun x => x != 0

end Store

end Spreadsheet
