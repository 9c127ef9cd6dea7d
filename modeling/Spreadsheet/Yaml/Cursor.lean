/-
Places in YAML text. There are several ways to break a line; `unifyBreaks` leaves three of them, the
line feed and the two separators of Unicode, and everything else reads the text it gives. A place
counts lines and characters from zero, and also the bytes since the start of the line, which bound
the length of keys.
-/
import Spreadsheet.Text.CharClass

namespace Spreadsheet.Yaml

/-- Whether a character may stand in a document. -/
def isPrintable (c : Char) : Bool :=
  c == '\t' || c == '\n' || c == '\r' || inRanges
    [(0x20, 0x7E), (0x85, 0x85), (0xA0, 0xD7FF), (0xE000, 0xFFFD), (0x10000, 0x10FFFF)] c.toNat

/-- The text with a line feed for each carriage return, each pair of them, and each next line. -/
def unifyBreaks : List Char → List Char
  | [] => []
  | '\r' :: '\n' :: rest => '\n' :: unifyBreaks rest
  | c :: rest => (if c = '\r' || c = '\u0085' then '\n' else c) :: unifyBreaks rest

/-- Whether a character breaks the line. -/
def isBreak (c : Char) : Bool :=
  c == '\n' || c == '\u2028' || c == '\u2029'

/-- Whether a character is a blank within a line. -/
def isInlineBlank (c : Char) : Bool :=
  c == ' ' || c == '\t'

/-- Whether what is left of a text starts with a blank or a break, or is nothing. -/
def endsWord : List Char → Bool
  | [] => true
  | c :: _ => isInlineBlank c || isBreak c

/-- Whether what is left of a line is nothing. -/
def endsLine : List Char → Bool
  | [] => true
  | c :: _ => isBreak c

/-- A place in a text. -/
structure Place where
  line : Nat
  column : Nat
  /-- The bytes since the start of the line. -/
  offset : Nat
deriving Inhabited

/-- The first place of a text. -/
def Place.start : Place := ⟨0, 0, 0⟩

/-- The place behind a character. -/
def Place.step (p : Place) (c : Char) : Place :=
  if isBreak c then ⟨p.line + 1, 0, 0⟩ else ⟨p.line, p.column + 1, p.offset + c.utf8Size⟩

/-- A place and what is left of the text there. -/
structure Cursor where
  place : Place
  text : List Char
deriving Inhabited

namespace Cursor

/-- Moves past some characters. -/
def drop (c : Cursor) (n : Nat) : Cursor :=
  ⟨(c.text.take n).foldl Place.step c.place, c.text.drop n⟩

/-- The longest run of characters with a property that starts here, and the place behind it. -/
def span (p : Char → Bool) (c : Cursor) : List Char × Cursor :=
  let run := c.text.takeWhile p
  (run, c.drop run.length)

/-- Moves past blanks within the line. -/
def skipBlanks (c : Cursor) : Cursor :=
  (c.span isInlineBlank).2

/-- The start of the next line, if nothing but blanks and a comment is left of this one. -/
def nextLine? (c : Cursor) : Option Cursor :=
  let c := c.skipBlanks
  let c := if c.text.head? = some '#' then (c.span fun d => !isBreak d).2 else c
  if endsLine c.text then some (c.drop 1) else none

/-- Whether a mark stands here three times, at the start of a line and by itself. -/
def atMark (mark : Char) (c : Cursor) : Bool :=
  c.place.column == 0 && c.text.take 3 == [mark, mark, mark] && endsWord (c.text.drop 3)

/-- Whether a document starts or ends here. -/
def atBoundary (c : Cursor) : Bool :=
  c.atMark '-' || c.atMark '.'

end Cursor

end Spreadsheet.Yaml
