/-
Lines and trimmed text. A line ends at a line feed, and one carriage return before the feed goes
with it; the text after the last feed is a line unless it is empty. Trimming removes blanks at
both ends and nothing else.
-/
import Spreadsheet.Text.CharClass

namespace Spreadsheet

/-- A text without the blanks before and after it. -/
def trimChars (s : List Char) : List Char :=
  ((s.dropWhile isBlank).reverse.dropWhile isBlank).reverse

/-- The pieces of a text between the occurrences of a separator, at least one. -/
def splitAtChar (sep : Char) : List Char → List (List Char)
  | [] => [[]]
  | c :: rest =>
    if c = sep then [] :: splitAtChar sep rest
    else match splitAtChar sep rest with
      | [] => [[c]]
      | piece :: pieces => (c :: piece) :: pieces

/-- A line that ended in a feed, without the carriage return before the feed. -/
def dropReturn (line : List Char) : List Char :=
  if line.getLast? = some '\r' then line.dropLast else line

/-- The pieces between line feeds as lines: every piece but the last ended in a feed, and the last
is a line only if it holds something. -/
def linesOfPieces : List (List Char) → List (List Char)
  | [] => []
  | [last] => if last.isEmpty then [] else [last]
  | piece :: pieces => dropReturn piece :: linesOfPieces pieces

/-- The lines of a text. -/
def textLines (s : List Char) : List (List Char) :=
  linesOfPieces (splitAtChar '\n' s)

end Spreadsheet
