/-
The commands and what they print. A command reads files through a function it is given, so all that
depends on the world is what that function answers. It prints lines and may fail on the way; what it
has printed by then stays printed. A line may mention how long the calculation took, and is
therefore a function of that time in nanoseconds.
-/
import Spreadsheet.DependencyList
import Spreadsheet.Model.Load
import Spreadsheet.Model.Yaml
import Spreadsheet.Workbook.Audit
import Spreadsheet.Workbook.Locate
import Spreadsheet.Workbook.Recalc

namespace Spreadsheet

/-- A command with its arguments. -/
inductive Command where
  | calculate (file : String) (json verbose : Bool) (policy : Option TextPolicy)
  | validate (files : List String)
  | audit (file cell : String)
  | sort (file : String)
deriving Inhabited

/-- What reading a file by name gives. -/
abbrev Files := String → Except FileFault String

/-- Text that may mention a time in nanoseconds. -/
abbrev TimedText := Nat → String

/-- Printing text, and perhaps failing. -/
abbrev Printing := ExceptT Failure (StateM TimedText)

/-- Prints a line that may mention the time taken. -/
def sayTimed (line : TimedText) : Printing Unit :=
  modify fun printed time => printed time ++ line time ++ "\n"

/-- Prints a line. -/
def say (line : String) : Printing Unit :=
  sayTimed fun _ => line

/-- Goes on with a result, or fails. -/
def orFail {α} : Except Failure α → Printing α
  | .ok a => pure a
  | .error failure => throw failure

namespace Workbook

/-- A cell as the commands show it. -/
def shownValue (w : Workbook) (cell : CellAddress) : String :=
  match w.store.get? cell with
  | none => ""
  | some (.number x) => numberText x
  | some (.text s) => s
  | some (.boolean b) => if b then "TRUE" else "FALSE"
  | some (.formula _ (some result)) => result.shown
  | some (.formula _ none) => "(not calculated)"

/-- What a content is worth in JSON: a value or an error code. -/
def jsonContent : CellContent → List (String × JsonValue)
  | .number x => [("value", .number x)]
  | .text s => [("value", .text s)]
  | .boolean b => [("value", .truth b)]
  | .formula f result =>
    ("formula", .text f.source) :: match result with
      | some (.number x) => [("value", .number x)]
      | some (.text s) => [("value", .text s)]
      | some (.error fault) => [("error", .text fault.code)]
      | none => []

/-- A cell in JSON. -/
def jsonCell (w : Workbook) (cell : CellAddress) : JsonValue :=
  .object ([("cell", .text cell.label), ("kind", .text (w.store.kind cell).name)] ++
    ((w.store.get? cell).map jsonContent).getD [])

/-- A workbook in JSON with the report of its calculation. Names are left out if there are none. -/
def toJson (w : Workbook) (report : Report) : JsonValue :=
  let names := w.names.sources.map fun (name, source) =>
    JsonValue.object [("name", .text name), ("formula", .text source)]
  let sheets := w.store.sheets.zipIdx.map fun (name, i) =>
    JsonValue.object [("name", .text name), ("cells", .list ((w.store.usedCells i).map w.jsonCell))]
  .object ((if names.isEmpty then [] else [("names", .list names)]) ++
    [("sheets", .list sheets), ("report", report.toJson)])

end Workbook

namespace Command

/-- Reads a file. -/
def readFile (files : Files) (file : String) : Printing String :=
  match files file with
  | .ok content => pure content
  | .error fault => throw (.file fault)

/-- Loads the model in a file, with whatever problems it has. -/
def loadModel (files : Files) (file : String) : Printing Loaded := do
  let content ← readFile files file
  let model ← orFail (Model.parse content)
  orFail model.load

/-- Prints the problems of a loaded model, a line each. -/
def sayProblems (file : String) : List Problem → Printing Unit
  | [] => pure ()
  | problem :: rest => do
    say ("   ❌ " ++ file ++ " " ++ problem.entry.shown ++ ": " ++ problem.failure.message)
    sayProblems file rest

/-- Loads the model in a file; its problems are printed, and any at all are a failure. -/
def loadWorkbook (files : Files) (file : String) : Printing Workbook := do
  let loaded ← loadModel files file
  sayProblems file loaded.problems
  orFail loaded.complete

/-- Prints each of some lines. -/
def sayAll : List String → Printing Unit
  | [] => pure ()
  | line :: rest => do
    say line
    sayAll rest

/-- The word for a policy. -/
def policyWord : TextPolicy → String
  | .skip => "Skip"
  | .error => "Error"

/-- The lines about the names of a workbook, none if it has none. -/
def nameLines (w : Workbook) : List String :=
  if w.names.isEmpty then []
  else "   🏷️  Names:" :: w.names.sources.map fun (name, source) =>
    "      " ++ name ++ " = " ++ source

/-- The line about a cell: its label and value, and the formula it holds. -/
def cellLine (w : Workbook) (cell : CellAddress) : String :=
  let shown := "      " ++ cell.label ++ " = " ++ w.shownValue cell
  match w.store.formulaSource? cell with
  | some source => shown ++ "   " ++ source
  | none => shown

/-- The lines about the sheets of a workbook. -/
def sheetLines (w : Workbook) : List String :=
  w.store.sheets.zipIdx.flatMap fun (name, i) =>
    ("   📊 Sheet: " ++ name) :: (w.store.usedCells i).map (cellLine w)

/-- Calculates the model in a file and prints all cells. -/
def runCalculate (files : Files) (file : String) (json verbose : Bool)
    (policy : Option TextPolicy) : Printing Unit := do
  if !json then
    say "🔥 Cellforge - Calculating formulas"
    say ("   File: " ++ file ++ "\n")
  let loaded ← loadWorkbook files file
  let w := match policy with
    | some policy => loaded.setPolicy policy
    | none => loaded
  if verbose && !json then
    say ("   Found " ++ decimalText w.store.sheetCount ++ " sheet(s), " ++
      decimalText w.dirty.size ++ " dirty cell(s)")
    say ("   Text in aggregates: " ++ policyWord w.policy ++ "\n")
  let (w, report) := w.calculate
  if json then
    sayTimed fun time => (w.toJson { report with elapsed := time }).indented 0
  else
    say "✅ Calculation Results:"
    sayAll (nameLines w)
    sayAll (sheetLines w)
    say ""
    let start := if report.hadCycles then "⚠️  " else "   "
    sayTimed fun time => start ++ { report with elapsed := time }.summary

/-- Loads the models in files and prints their problems; answers how many there are. -/
def validateAll (files : Files) : List String → Printing Nat
  | [] => pure 0
  | file :: rest => do
    say ("   File: " ++ file)
    let loaded ← loadModel files file
    sayProblems file loaded.problems
    let others ← validateAll files rest
    return loaded.problems.length + others

/-- Checks the models in files; any problem is a failure. -/
def runValidate (files : Files) (names : List String) : Printing Unit := do
  say "✅ Validating models"
  let invalid ← validateAll files names
  say ""
  if invalid = 0 then say "✅ All formulas are valid!"
  else
    say ("❌ Found " ++ decimalText invalid ++ " invalid cell(s)")
    throw (.invalidCells invalid)

/-- The lines about cells, or one line if there are none. -/
def branchLines (w : Workbook) (cells : List CellAddress) (noneLine : String) : List String :=
  if cells.isEmpty then [noneLine]
  else cells.map fun cell =>
    "   └─ " ++ w.store.qualifiedLabel cell ++ " = " ++ w.shownValue cell

/-- Prints what a cell of the model in a file holds, what it depends on and what depends on it. -/
def runAudit (files : Files) (file cell : String) : Printing Unit := do
  say "🔍 Cellforge - Audit Trail"
  say ("   File: " ++ file)
  say ("   Cell: " ++ cell ++ "\n")
  let loaded ← loadWorkbook files file
  let address ← orFail (loaded.locate cell)
  let (w, _) := loaded.calculate
  say "📋 Cell Information:"
  say ("   Address: " ++ w.store.qualifiedLabel address)
  say ("   Type: " ++ (w.store.kind address).name)
  if let some source := w.store.formulaSource? address then
    say ("   Formula: " ++ source)
  say ("   Value: " ++ w.shownValue address)
  say ""
  say "🌳 Precedents:"
  sayAll (branchLines w (w.precedents address).toList "   No precedents (literal value)")
  say ""
  say "🔗 Dependents:"
  sayAll (branchLines w (w.dependents address).toList "   Nothing depends on this cell")

/-- Prints the names of the dependency list in a file, each after all it depends on. -/
def runSort (files : Files) (file : String) : Printing Unit := do
  let content ← readFile files file
  let list ← orFail (DependencyList.parse content)
  sayAll (← orFail list.sorted)

/-- Runs a command. -/
def run (files : Files) : Command → Printing Unit
  | calculate file json verbose policy => runCalculate files file json verbose policy
  | validate names => runValidate files names
  | audit file cell => runAudit files file cell
  | sort file => runSort files file

/-- What a command prints and how it ends. -/
def outcome (files : Files) (command : Command) : Except Failure Unit × TimedText :=
  (command.run files).run.run fun _ => ""

/-- The arguments of a calculation: the file and the options around it. -/
def calculateOf? (file : Option String) (json verbose : Bool) (policy : Option TextPolicy) :
    List String → Option Command
  | [] => file.map fun file => .calculate file json verbose policy
  | "--json" :: rest => calculateOf? file true verbose policy rest
  | "--verbose" :: rest => calculateOf? file json true policy rest
  | "-v" :: rest => calculateOf? file json true policy rest
  | "--text-policy" :: word :: rest =>
    (Model.policyOf? word).bind fun policy => calculateOf? file json verbose (some policy) rest
  | argument :: rest =>
    if file.isSome || argument.startsWith "-" then none
    else calculateOf? (some argument) json verbose policy rest

/-- The command that arguments spell. -/
def ofArguments? : List String → Option Command
  | "calculate" :: rest => calculateOf? none false false none rest
  | "validate" :: file :: files => some (.validate (file :: files))
  | ["audit", file, cell] => some (.audit file cell)
  | ["sort", file] => some (.sort file)
  | _ => none

end Command

end Spreadsheet
