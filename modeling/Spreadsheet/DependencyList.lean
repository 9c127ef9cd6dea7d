/-
Dependency lists: text with a line `name: dependency` for each dependency. The lines are collected
by name before a graph is made of them. The names of a list are sorted so that each comes after the
names it depends on, which can be done unless some of them lie on a cycle. Blank lines say nothing,
and blanks around names are not part of them.
-/
import Spreadsheet.Failure
import Spreadsheet.Graph
import Spreadsheet.Text.Line

namespace Spreadsheet

/-- The names of a list and what each depends on. -/
structure DependencyList where
  names : Std.ExtTreeSet String
  graph : Graph String

namespace DependencyList

/-- A list that says nothing. -/
def empty : DependencyList := ⟨∅, .empty⟩

/-- A list with one more name, which depends on exactly the given ones. -/
def addName (l : DependencyList) (name : String) (dependencies : List String) : DependencyList where
  names := (l.names.insert name).insertMany dependencies
  graph := l.graph.setEdges name dependencies

/-- What lines say: for each name that one of them begins with what it depends on, line by line. -/
abbrev Entries := Std.ExtTreeMap String (List String)

/-- One line more, which says that a name depends on another. -/
def Entries.add (entries : Entries) (name dependency : String) : Entries :=
  entries.insert name (entries.getD name [] ++ [dependency])

/-- The name and the dependency on a line that is not blank. -/
def readLine (line : List Char) : Except LineFault (String × String) :=
  match splitAtChar ':' line with
  | _ :: _ :: _ :: _ => .error .manySeparators
  | pieces =>
    let name := trimChars (pieces.headD [])
    let dependency := trimChars (pieces.tail.headD [])
    if name.isEmpty then .error .noName
    else if dependency.isEmpty then .error .noDependency
    else .ok (String.ofList name, String.ofList dependency)

/-- Adds what the lines say, the first of them having a number. -/
def Entries.addLines (entries : Entries) (number : Nat) : List (List Char) → Except Failure Entries
  | [] => .ok entries
  | line :: rest =>
    if (trimChars line).isEmpty then addLines entries (number + 1) rest
    else match readLine line with
      | .error fault => .error (.line number fault)
      | .ok (name, dependency) => addLines (entries.add name dependency) (number + 1) rest

/-- The list that says what the entries say, name by name. -/
def ofEntries (entries : Entries) : DependencyList :=
  entries.foldl addName empty

/-- Reads a list; the first line that is wrong is the failure. -/
def parse (content : String) : Except Failure DependencyList :=
  (Entries.addLines ∅ 1 (textLines content.toList)).map ofEntries

/-- The number of names. -/
def size (l : DependencyList) : Nat :=
  l.names.size

/-- Whether a list says nothing. -/
def isEmpty (l : DependencyList) : Bool :=
  l.names.isEmpty

/-- The names, each after all it depends on. -/
def sorted (l : DependencyList) : Except Failure (List String) :=
  let plan := l.graph.plan (fun _ => []) l.names
  if plan.cycleMembers.isEmpty then .ok plan.order
  else .error (.circularDependency plan.cycleMembers)

end DependencyList

end Spreadsheet
