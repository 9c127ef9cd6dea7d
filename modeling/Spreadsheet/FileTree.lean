/-
Files in directories, and reading them by path. A path is a list of names with slashes between
them, walked from the root if it starts with a slash and from the working directory otherwise. The
first name that cannot be followed decides why a path leads nowhere.
-/
import Spreadsheet.Failure

namespace Spreadsheet

/-- A file or a directory. -/
inductive FileTree where
  | file (content : ByteArray)
  | directory (entries : List (String × FileTree))
deriving Inhabited

namespace FileTree

/-- The text that bytes are. -/
def textOf (content : ByteArray) : Except FileFault String :=
  match String.fromUTF8? content with
  | some text => .ok text
  | none => .error .notUtf8

/-- The most bytes of a name in a path. -/
def maxNameLength : Nat := 255

/-- The most bytes of a path. -/
def maxPathLength : Nat := 4095

/-- Follows a name from a place, given as what is there and the directories around it, innermost
first. An empty name and a dot stay, two dots go out of a directory; from a file nothing leads on. -/
def step (place : List FileTree) (name : String) : Except FileFault (List FileTree) :=
  match place with
  | .directory entries :: outer =>
    if name = "" || name = "." then .ok place
    else if name = ".." then .ok (if outer.isEmpty then place else outer)
    else if maxNameLength < name.utf8ByteSize then .error .nameTooLong
    else match entries.lookup name with
      | some tree => .ok (tree :: place)
      | none => .error .notFound
  | _ => .error .notDirectory

/-- Follows names from a place. -/
def walk (place : List FileTree) : List String → Except FileFault (List FileTree)
  | [] => .ok place
  | name :: rest => (step place name).bind fun place => walk place rest

/-- Reads the file that a path leads to, from a working directory given by the names on the way to
it from the root. -/
def read (root : FileTree) (working : List String) (path : String) : Except FileFault String := do
  if path.toList.contains '\x00' then throw .zeroInPath
  if path = "" then throw .notFound
  if maxPathLength < path.utf8ByteSize then throw .nameTooLong
  let start ← if path.startsWith "/" then pure [root] else walk [root] working
  match ← walk start (path.splitOn "/") with
  | .file content :: _ => textOf content
  | _ => throw .isDirectory

end FileTree

end Spreadsheet
