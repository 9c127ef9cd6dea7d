/-
The program: reads its arguments, lets the command run on the files of the system, prints what the
command prints and reports a failure on the error stream.
-/
import Spreadsheet.Command
import Spreadsheet.FileTree

open Spreadsheet

/-- What is printed when the arguments are no command. -/
def usage : String :=
  "usage: calculate FILE [--json] [--verbose] [--text-policy skip|error] | validate FILE... | " ++
    "audit FILE CELL | sort FILE"

/-- The fault that the system reports. -/
def faultOf : IO.Error → FileFault
  | .inappropriateType _ code _ => if code = 21 then .isDirectory else .notDirectory
  | .invalidArgument _ _ _ => .nameTooLong
  | _ => .notFound

/-- Reads the files a command names. -/
def readAll : List String → IO (List (String × Except FileFault String))
  | [] => return []
  | file :: rest => do
    let content ← try
        let bytes ← IO.FS.readBinFile file
        pure (FileTree.textOf bytes)
      catch e => pure (.error (faultOf e))
    return (file, content) :: (← readAll rest)

/-- The files a command names. -/
def filesOf : Command → List String
  | .calculate file _ _ _ => [file]
  | .validate files => files
  | .audit file _ => [file]
  | .sort file => [file]

/-- Runs the command that the arguments spell. -/
def main (arguments : List String) : IO UInt32 := do
  match Command.ofArguments? arguments with
  | none =>
    IO.eprintln usage
    return 2
  | some command =>
    let contents ← readAll (filesOf command)
    let files : Files := fun name =>
      ((contents.find? (·.1 == name)).map (·.2)).getD (.error .notFound)
    let start ← IO.monoNanosNow
    let (result, printed) := command.outcome files
    let stop ← IO.monoNanosNow
    IO.print (printed (stop - start))
    match result with
    | .ok () => return 0
    | .error failure =>
      IO.eprintln ("Error: " ++ failure.message)
      return 1
