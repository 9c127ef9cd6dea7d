/-
Plain and quoted scalars. Each may run over several lines: a single line break inside it reads as a
blank, and each further one as itself. Blanks around breaks are no part of it. Between double quotes
a backslash starts an escape, and one at the end of a line joins the next line to it.
-/
import Spreadsheet.Yaml.Cursor
import Spreadsheet.Yaml.Resolved

namespace Spreadsheet.Yaml

/-- Blanks and breaks inside a scalar, kept until it is known whether more follows. Characters are
kept last first. -/
inductive Gap where
  /-- Blanks on one line, perhaps none. -/
  | blanks (run : List Char)
  /-- Breaks, with blanks around them that do not count: the first and the others. -/
  | breaks (first others : List Char)

namespace Gap

/-- No gap. -/
def none : Gap := .blanks []

/-- Whether a gap breaks the line. -/
def isBroken : Gap → Bool
  | blanks _ => false
  | breaks _ _ => true

/-- Whether there is no gap. -/
def isNone : Gap → Bool
  | blanks run => run.isEmpty
  | breaks _ _ => false

/-- A gap with one more blank. -/
def addBlank (c : Char) : Gap → Gap
  | blanks run => blanks (c :: run)
  | breaks first others => breaks first others

/-- A gap with one more break. -/
def addBreak (c : Char) : Gap → Gap
  | blanks _ => breaks [c] []
  | breaks first others => breaks first (c :: others)

/-- What a gap reads as, last character first: a line feed that stands alone is a blank, and one
before other breaks is nothing. -/
def text : Gap → List Char
  | blanks run => run
  | breaks first others =>
    if first = ['\n'] then (if others.isEmpty then [' '] else others) else others ++ first

end Gap

/-! ## Plain scalars -/

/-- The characters that structure a flow collection. -/
def isFlowIndicator (c : Char) : Bool :=
  c == ',' || c == '[' || c == ']' || c == '\x7b' || c == '\x7d'

/-- The characters that mean something of their own at the start of a scalar. -/
def indicators : List Char :=
  ['-', '?', ':', ',', '[', ']', '\x7b', '\x7d', '#', '&', '*', '!', '|', '>', '\'', '"', '%', '@',
    '\x60']

/-- Whether a plain scalar starts with this. -/
def startsPlain (inFlow : Bool) : List Char → Bool
  | [] => false
  | c :: rest =>
    !(endsWord [c] || indicators.contains c) || (c == '-' && !endsWord rest) ||
      (!inFlow && (c == '?' || c == ':') && !endsWord rest)

/-- Whether a plain scalar ends before this, with a gap before it and at least a column to keep to
outside of flow collections. -/
def endsPlain (inFlow : Bool) (least : Nat) (gap : Gap) (c : Cursor) : Bool :=
  match c.text with
  | [] => true
  | d :: rest =>
    (!gap.isNone && (d == '#' || (!inFlow && c.place.column < least))) || c.atBoundary ||
      (d == ':' && endsWord rest) || (inFlow && isFlowIndicator d)

/-- Whether a colon stands here that neither ends a plain scalar nor may be part of it. -/
def isStrayColon (inFlow : Bool) : List Char → Bool
  | ':' :: c :: _ => inFlow && (isFlowIndicator c || c == '?')
  | _ => false

/-- Reads a plain scalar: its text, whether a line break follows it, and the place behind the gap
after it. Below its first line no tab may stand before the least column. -/
def readPlain (inFlow : Bool) (least : Nat) (place : Place) (read : List Char) (gap : Gap) :
    List Char → Option (List Char × Bool × Cursor)
  | [] => some (read.reverse, gap.isBroken, ⟨place, []⟩)
  | c :: rest =>
    if isBreak c then readPlain inFlow least (place.step c) read (gap.addBreak c) rest
    else if isInlineBlank c then
      if c == '\t' && gap.isBroken && place.column < least then none
      else readPlain inFlow least (place.step c) read (gap.addBlank c) rest
    else if endsPlain inFlow least gap ⟨place, c :: rest⟩ then
      some (read.reverse, gap.isBroken, ⟨place, c :: rest⟩)
    else if isStrayColon inFlow (c :: rest) then none
    else readPlain inFlow least (place.step c) (c :: (gap.text ++ read)) .none rest

/-! ## Quoted scalars -/

/-- Reads a single-quoted scalar behind its opening quote. -/
def readSingle (place : Place) (read : List Char) (gap : Gap) :
    List Char → Option (List Char × Cursor)
  | [] => none
  | '\'' :: '\'' :: rest =>
    readSingle ((place.step '\'').step '\'') ('\'' :: (gap.text ++ read)) .none rest
  | c :: rest =>
    if isBreak c then readSingle (place.step c) read (gap.addBreak c) rest
    else if isInlineBlank c then readSingle (place.step c) read (gap.addBlank c) rest
    else if (Cursor.mk place (c :: rest)).atBoundary then none
    else if c = '\'' then some ((gap.text ++ read).reverse, ⟨place.step c, rest⟩)
    else readSingle (place.step c) (c :: (gap.text ++ read)) .none rest

/-- The character that an escape of one letter stands for. -/
def namedEscape? : Char → Option Char
  | '0' => some '\x00'
  | 'a' => some '\x07'
  | 'b' => some '\x08'
  | 't' => some '\t'
  | '\t' => some '\t'
  | 'n' => some '\n'
  | 'v' => some '\x0b'
  | 'f' => some '\x0c'
  | 'r' => some '\r'
  | 'e' => some '\x1b'
  | ' ' => some ' '
  | '"' => some '"'
  | '/' => some '/'
  | '\\' => some '\\'
  | 'N' => some '\u0085'
  | '_' => some '\u00a0'
  | 'L' => some '\u2028'
  | 'P' => some '\u2029'
  | _ => none

/-- How many hexadecimal digits follow an escape letter. -/
def escapeWidth? : Char → Option Nat
  | 'x' => some 2
  | 'u' => some 4
  | 'U' => some 8
  | _ => none

/-- The character with a code, if there is one. -/
def charOfCode? (n : Nat) : Option Char :=
  if n < 0xD800 || (0xDFFF < n && n ≤ 0x10FFFF) then some (Char.ofNat n) else none

/-- The character that an escape stands for and the number of characters after the backslash that
it takes. -/
def readEscape : List Char → Option (Char × Nat)
  | [] => none
  | c :: rest =>
    match escapeWidth? c with
    | some width =>
      let digits := rest.take width
      if digits.length = width then
        ((numberIn? 16 digits).bind charOfCode?).map (·, width + 1)
      else none
    | none => (namedEscape? c).map (·, 1)

/-- Reads a double-quoted scalar behind its opening quote. -/
def readDouble (place : Place) (read : List Char) (gap : Gap) :
    List Char → Option (List Char × Cursor)
  | [] => none
  | c :: rest =>
    let here := Cursor.mk place (c :: rest)
    if isBreak c then readDouble (place.step c) read (gap.addBreak c) rest
    else if isInlineBlank c then readDouble (place.step c) read (gap.addBlank c) rest
    else if here.atBoundary then none
    else if c = '"' then some ((gap.text ++ read).reverse, here.drop 1)
    else if c = '\\' then
      if rest.head?.any isBreak then
        readDouble (here.drop 2).place (gap.text ++ read) (.breaks [] []) rest.tail
      else match readEscape rest with
        | none => none
        | some (d, width) =>
          readDouble (here.drop (width + 1)).place (d :: (gap.text ++ read)) .none (rest.drop width)
    else readDouble (place.step c) (c :: (gap.text ++ read)) .none rest
termination_by s => s.length
decreasing_by
  all_goals
    simp only [List.length_tail, List.length_drop, List.length_cons]
    omega

end Spreadsheet.Yaml
