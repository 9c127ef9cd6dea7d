/-
Block scalars: the lines below a `|` or `>` that are indented deeper than what holds them. Behind
`|` the breaks between them are kept, behind `>` a single one reads as a blank unless a line beside
it starts with a blank. What becomes of the breaks at the end is chosen with the mark.
-/
import Spreadsheet.Yaml.Cursor

namespace Spreadsheet.Yaml

/-- What becomes of the breaks at the end of a block scalar. -/
inductive Chomping where
  | strip
  | clip
  | keep
deriving DecidableEq

/-- The chomping that a character chooses. -/
def chompingOf? (c : Char) : Option Chomping :=
  if c = '+' then some .keep else if c = '-' then some .strip else none

/-- The indentation that a character gives, which is not zero. -/
def indentOf? (c : Char) : Option Nat :=
  if c.isDigit && c != '0' then some (c.toNat - '0'.toNat) else none

/-- The marks after `|` or `>`, in either order: the chomping, an indentation, and how many
characters they take. -/
def readBlockMarks (s : List Char) : Chomping × Option Nat × Nat :=
  match s.head?.bind chompingOf?, s.head?.bind indentOf? with
  | some chomping, _ =>
    match s.tail.head?.bind indentOf? with
    | some n => (chomping, some n, 2)
    | none => (chomping, none, 1)
  | none, some n =>
    match s.tail.head?.bind chompingOf? with
    | some chomping => (chomping, some n, 2)
    | none => (.clip, some n, 1)
  | none, none => (.clip, none, 0)

/-- What has been read of a block scalar. Characters are kept last first. -/
structure BlockText where
  read : List Char
  /-- The break of the last line read. -/
  last : List Char
  /-- The breaks of the blank lines below it. -/
  after : List Char
  /-- Whether that line starts with a blank. -/
  isDeeper : Bool
  /-- The column at which lines start, once it is known. -/
  indent : Option Nat
  /-- The greatest column at which a blank line ended before that. -/
  widest : Nat

namespace BlockText

/-- Nothing read yet, with an indentation that may be given. -/
def empty (indent : Option Nat) : BlockText := ⟨[], [], [], false, indent, 0⟩

/-- Whether a column is still part of the indentation. -/
def isIndenting (b : BlockText) (column : Nat) : Bool :=
  b.indent.all fun indent => column < indent

/-- Joins the next line to those before it. -/
def startLine (b : BlockText) (folded : Bool) (indent : Nat) (isDeeper : Bool) : BlockText :=
  let joint :=
    if folded && b.last == ['\n'] && !b.isDeeper && !isDeeper then
      (if b.after.isEmpty then [' '] else b.after)
    else b.after ++ b.last
  { b with read := joint ++ b.read, last := [], after := [], isDeeper, indent := some indent }

/-- The text with the breaks at its end that chomping leaves. -/
def chomped (b : BlockText) : Chomping → List Char
  | .strip => b.read.reverse
  | .clip => (b.last ++ b.read).reverse
  | .keep => (b.after ++ b.last ++ b.read).reverse

end BlockText

/-- Reads the lines of a block scalar, at a place in a line or in its indentation. No tab may stand
in the indentation. If no indentation is given, it is that of the first line with more than spaces,
or of a longer line before it, and at least the least one. -/
def readBlockLines (folded : Bool) (least : Nat) (b : BlockText) (inLine : Bool) (place : Place) :
    List Char → Option (BlockText × Cursor)
  | [] => some (b, ⟨place, []⟩)
  | c :: rest =>
    if inLine then
      if isBreak c then
        readBlockLines folded least { b with last := [c] } false (place.step c) rest
      else readBlockLines folded least { b with read := c :: b.read } true (place.step c) rest
    else if c == ' ' && b.isIndenting place.column then
      readBlockLines folded least b false (place.step c) rest
    else if c == '\t' && b.isIndenting place.column then none
    else
      let widest := max b.widest place.column
      if isBreak c then
        readBlockLines folded least { b with widest, after := c :: b.after } false (place.step c) rest
      else
        let indent := b.indent.getD (max widest least)
        if place.column = indent then
          let b := b.startLine folded indent (isInlineBlank c)
          readBlockLines folded least { b with read := c :: b.read } true (place.step c) rest
        else some (b, ⟨place, c :: rest⟩)

/-- Reads a block scalar behind its `|` or `>`, held by a collection at a column. -/
def readBlockScalar (folded : Bool) (holder : Option Nat) (c : Cursor) :
    Option (List Char × Cursor) := do
  let (chomping, given, marks) := readBlockMarks c.text
  let start ← (c.drop marks).nextLine?
  let least := (holder.map (· + 1)).getD 0
  let indent := given.map (holder.getD 0 + ·)
  let (b, next) ←
    readBlockLines folded (max least 1) (.empty indent) false start.place start.text
  return (b.chomped chomping, next)

end Spreadsheet.Yaml
