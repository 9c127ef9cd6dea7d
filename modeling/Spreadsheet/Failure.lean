/-
Why an operation on a workbook, a model or a dependency list fails, one constructor a cause. Cells
are named by their label with the sheet before it. The wording is in `Failure.message`.
-/
import Spreadsheet.Formula.Token
import Spreadsheet.Value

namespace Spreadsheet

/-- What a cell holds. -/
inductive CellKind where
  | empty
  | numeric
  | string
  | boolean
  | formula
deriving DecidableEq, Inhabited

/-- The name of a kind. -/
def CellKind.name : CellKind → String
  | empty => "empty"
  | numeric => "numeric"
  | string => "string"
  | boolean => "boolean"
  | formula => "formula"

/-- Why a file cannot be read as text. -/
inductive FileFault where
  | notFound
  | notDirectory
  | isDirectory
  | nameTooLong
  /-- A path holds the character with the code zero. -/
  | zeroInPath
  | notUtf8
deriving DecidableEq

/-- What a file fault says. -/
def FileFault.message : FileFault → String
  | notFound => "No such file or directory (os error 2)"
  | notDirectory => "Not a directory (os error 20)"
  | isDirectory => "Is a directory (os error 21)"
  | nameTooLong => "File name too long (os error 36)"
  | zeroInPath => "file name contained an unexpected NUL byte"
  | notUtf8 => "stream did not contain valid UTF-8"

/-- What is wrong with a line of a dependency list. -/
inductive LineFault where
  | manySeparators
  | noName
  | noDependency
deriving DecidableEq

/-- What a line fault says. -/
def LineFault.message : LineFault → String
  | manySeparators => "more than one separator in a single line"
  | noName => "cell name is empty"
  | noDependency => "dependency name is empty"

/-- Why an operation fails. -/
inductive Failure where
  /-- A file cannot be read. -/
  | file (fault : FileFault)
  /-- A model's text has not the structure of a model. -/
  | malformedModel
  /-- A formula cannot be read. -/
  | formula (source : String) (cause : SyntaxError)
  | typeMismatch (cell : String) (expected found : CellKind)
  | staleValue (cell : String)
  | circularReference (cell : String)
  | evaluation (cell : String) (fault : Fault)
  | duplicateSheet (name : String)
  | unknownSheet (shown : String)
  | invalidAddress (text : String)
  | invalidName (name : String)
  /-- A line of a dependency list, counted from one, is wrong. -/
  | line (number : Nat) (fault : LineFault)
  | circularDependency (members : List String)
  /-- Entries of a model could not be loaded; the first one is named. -/
  | entriesFailed (count : Nat) (first : String) (cause : Failure)
  /-- Entries of the checked models are wrong. -/
  | invalidCells (count : Nat)
deriving Inhabited

namespace Failure

/-- What a failure says. -/
def message : Failure → String
  | file fault => "IO error: " ++ fault.message
  | malformedModel => "YAML parsing error"
  | formula source cause => "Invalid formula '" ++ source ++ "': " ++ cause.message
  | typeMismatch cell expected found =>
    "Type mismatch at " ++ cell ++ ": expected " ++ expected.name ++ ", found " ++ found.name
  | staleValue cell =>
    "Stale value at " ++ cell ++ ": formula has not been calculated since its inputs changed"
  | circularReference cell => "Circular reference at " ++ cell
  | evaluation cell fault =>
    "Formula evaluation error at " ++ cell ++ ": " ++ fault.code ++ " (" ++ fault.description ++ ")"
  | duplicateSheet name => "Sheet name already exists: " ++ name
  | unknownSheet shown => "Unknown sheet: " ++ shown
  | invalidAddress text => "Invalid cell address: " ++ text
  | invalidName name => "Invalid name: " ++ name
  | line number fault => "Input error at line " ++ decimalText number ++ ": " ++ fault.message
  | circularDependency members =>
    "Circular dependency detected: " ++ String.intercalate ", " members
  | entriesFailed count first cause =>
    "Validation error: " ++
      if count = 1 then first ++ ": " ++ cause.message
      else
        decimalText count ++ " cells failed to load (first: " ++ first ++ ": " ++
          cause.message ++ ")"
  | invalidCells count => "Validation error: Found " ++ decimalText count ++ " invalid cell(s)"

/-- The failure to read a formula's result that is a fault. -/
def ofFault (cell : String) : Fault → Failure
  | .circularReference => .circularReference cell
  | fault => .evaluation cell fault

end Failure

end Spreadsheet
