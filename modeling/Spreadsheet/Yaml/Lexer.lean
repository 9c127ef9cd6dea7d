/-
From YAML text to tokens. Whether something is a key shows only at the colon behind it, so the
reader remembers where a key may have started, at most one place in each open collection, and puts
the token for the key there when it meets the colon. A key stands on one line and takes at most
1024 bytes. Where a line starts at the column of the innermost block collection a key must start, and
a place where one was due but did not come is an error.
-/
import Spreadsheet.Yaml.BlockScalar
import Spreadsheet.Yaml.FlowScalar
import Spreadsheet.Yaml.Token

namespace Spreadsheet.Yaml

/-- The most bytes between the start of a key and its colon. -/
def maxKeyLength : Nat := 1024

/-- A place where a key may have started. -/
structure KeyStart where
  place : Place
  /-- How many tokens stand before it. -/
  before : Nat
  /-- Whether a key is due there. -/
  isDue : Bool

/-- A text that is being read. -/
structure Lexer where
  cursor : Cursor
  /-- The tokens read, last first. -/
  tokens : List Token
  /-- How many there are. -/
  count : Nat
  /-- The columns of the open block collections, innermost first. -/
  columns : List Nat
  /-- Where a key may have started in the innermost collection. -/
  keyStart : Option KeyStart
  /-- The same for what holds each open flow collection, innermost first. -/
  outerStarts : List (Option KeyStart)
  /-- Whether a key may start here. -/
  mayStartKey : Bool

namespace Lexer

/-- The start of a text. -/
def start (text : List Char) : Lexer := ⟨⟨.start, text⟩, [], 0, [], none, [], true⟩

/-- Whether a flow collection is open. -/
def inFlow (l : Lexer) : Bool := !l.outerStarts.isEmpty

/-- The least column of what the innermost block collection holds. -/
def innerColumn (l : Lexer) : Nat := (l.columns.head?.map (· + 1)).getD 0

/-- Adds a token. -/
def emit (t : Token) (l : Lexer) : Lexer :=
  { l with tokens := t :: l.tokens, count := l.count + 1 }

/-- Puts a token behind the first ones. -/
def insert (before : Nat) (t : Token) (l : Lexer) : Lexer :=
  { l with tokens := l.tokens.insertIdx (l.count - before) t, count := l.count + 1 }

/-- Adds a token that takes some characters. -/
def take (n : Nat) (t : Token) (l : Lexer) : Lexer :=
  { l with cursor := l.cursor.drop n }.emit t

/-- Says whether a key may start next. -/
def allowKey (may : Bool) (l : Lexer) : Lexer := { l with mayStartKey := may }

/-- Gives up the place where a key may have started, unless a key is due there. -/
def forgetKey (l : Lexer) : Option Lexer :=
  if l.keyStart.any (·.isDue) then none else some { l with keyStart := none }

/-- Remembers this place if a key may start here. -/
def noteKey (l : Lexer) : Option Lexer :=
  if l.mayStartKey then do
    let isDue := !l.inFlow && l.columns.head? == some l.cursor.place.column
    return { ← l.forgetKey with keyStart := some ⟨l.cursor.place, l.count, isDue⟩ }
  else some l

/-- Whether a key that started somewhere may still end here. -/
def KeyStart.reaches (here : Place) (k : KeyStart) : Bool :=
  k.place.line == here.line && decide (here.offset ≤ k.place.offset + maxKeyLength)

/-- Gives up the places from which no key reaches here; none if one was due there. -/
def forgetFar (l : Lexer) : Option Lexer :=
  let far (k : KeyStart) := !KeyStart.reaches l.cursor.place k
  if (l.keyStart :: l.outerStarts).any (·.any fun k => far k && k.isDue) then none
  else
    let near := Option.filter fun k => !far k
    some { l with keyStart := near l.keyStart, outerStarts := l.outerStarts.map near }

/-- Opens a block collection at a column deeper than the others, with a token behind the first
ones. -/
def openBlock (column before : Nat) (t : Token) (l : Lexer) : Lexer :=
  if !l.inFlow && l.columns.head?.all (· < column) then
    { l with columns := column :: l.columns }.insert before t
  else l

/-- Closes the block collections that a test on their columns picks, up to the first that stays. -/
def closeWhile (test : Nat → Bool) (l : Lexer) : Lexer :=
  if l.inFlow then l
  else
    let closed := l.columns.takeWhile test
    closed.foldl (fun l _ => l.emit .blockEnd) { l with columns := l.columns.drop closed.length }

/-- The place of the next token after blanks, comments and breaks, and whether a key may start
there. In blocks a tab may not stand where a key may start. -/
def skipToToken (inFlow mayStartKey inComment : Bool) (place : Place) :
    List Char → Bool × Cursor
  | [] => (mayStartKey, ⟨place, []⟩)
  | c :: rest =>
    if isBreak c then
      skipToToken inFlow (mayStartKey || !inFlow) false (place.step c) rest
    else if inComment || c == '#' || c == ' ' || (c == '\t' && (inFlow || !mayStartKey)) ||
        (c == '\ufeff' && place.column == 0) then
      skipToToken inFlow mayStartKey (inComment || c == '#') (place.step c) rest
    else (mayStartKey, ⟨place, c :: rest⟩)

/-- Moves on to the next token. -/
def advance (l : Lexer) : Option Lexer := do
  let (mayStartKey, cursor) :=
    skipToToken l.inFlow l.mayStartKey false l.cursor.place l.cursor.text
  let l ← { l with mayStartKey, cursor }.forgetFar
  return l.closeWhile (cursor.place.column < ·)

/-! ## Directives and documents -/

/-- Reads a part of a version number of at most nine digits. -/
def readVersionPart (c : Cursor) : Option (Nat × Cursor) :=
  let (digits, next) := c.span Char.isDigit
  if digits.length ≤ 9 then (numberIn? 10 digits).map (·, next) else none

/-- Reads a directive behind its percent sign, to the end of its line. -/
def readDirective (c : Cursor) : Option (Token × Cursor) := do
  let (name, next) := c.span isWordChar
  if !endsWord next.text then none
  else if name = "YAML".toList then do
    let (major, next) ← readVersionPart next.skipBlanks
    if next.text.head? = some '.' then do
      let (minor, next) ← readVersionPart (next.drop 1)
      return (.version major minor, ← next.nextLine?)
    else none
  else if name = "TAG".toList then do
    let (handle, next) ← readHandle next.skipBlanks
    if !(isClosed handle || handle = ['!']) || !next.text.head?.any isInlineBlank then none
    else do
      let (start, next) ← readTagPart true next.skipBlanks
      if endsWord next.text then return (.handle handle start, ← next.nextLine?) else none
  else none

/-- Ends all collections, before a directive or a boundary of documents. -/
def closeAll (l : Lexer) : Option Lexer := do
  let l ← (l.closeWhile fun _ => true).forgetKey
  return l.allowKey false

/-! ## Collections -/

/-- Takes the bracket that opens a flow collection. -/
def openFlow (t : Token) (l : Lexer) : Option Lexer := do
  let l ← l.noteKey
  return { l with keyStart := none, outerStarts := l.keyStart :: l.outerStarts }.allowKey true
    |>.take 1 t

/-- Takes the bracket that closes a flow collection. -/
def closeFlow (t : Token) (l : Lexer) : Option Lexer := do
  let l ← l.forgetKey
  let l := match l.outerStarts with
    | [] => l
    | outer :: rest => { l with keyStart := outer, outerStarts := rest }
  return (l.allowKey false).take 1 t

/-- Takes the dash of an entry. In a block it may open a sequence. -/
def takeDash (l : Lexer) : Option Lexer := do
  if !l.inFlow && !l.mayStartKey then none
  else
    let l ← (l.openBlock l.cursor.place.column l.count .blockSequenceStart).forgetKey
    return (l.allowKey true).take 1 .blockEntry

/-- Takes the mark of a key. In a block it may open a mapping. -/
def takeKeyMark (l : Lexer) : Option Lexer := do
  if !l.inFlow && !l.mayStartKey then none
  else
    let l ← (l.openBlock l.cursor.place.column l.count .blockMappingStart).forgetKey
    return (l.allowKey !l.inFlow).take 1 .key

/-- Takes the colon before a value. If a key may have started before it, it did; otherwise a mark
has announced the key, or it is left out. -/
def takeColon (l : Lexer) : Option Lexer :=
  match l.keyStart with
  | some k =>
    let l := (l.insert k.before .key).openBlock k.place.column k.before .blockMappingStart
    some (({ l with keyStart := none }.allowKey false).take 1 .value)
  | none =>
    if !l.inFlow && !l.mayStartKey then none
    else
      let l := l.openBlock l.cursor.place.column l.count .blockMappingStart
      some ((l.allowKey !l.inFlow).take 1 .value)

/-! ## Nodes -/

/-- Adds the token of something that may be a key and that a reader takes. -/
def takeKeyPart (read : Cursor → Option (Token × Cursor)) (l : Lexer) : Option Lexer := do
  let l ← l.noteKey
  let (t, cursor) ← read l.cursor
  return ({ l with cursor }.allowKey false).emit t

/-- Whether an anchor may end before this. -/
def endsAnchor (s : List Char) : Bool :=
  endsWord s || s.head?.any fun c => "?:,]%@\x60\x7d".toList.contains c

/-- Reads the name of an anchor behind its mark. -/
def readAnchor (make : List Char → Token) (c : Cursor) : Option (Token × Cursor) :=
  let (name, next) := (c.drop 1).span isWordChar
  if !name.isEmpty && endsAnchor next.text then some (make name, next) else none

/-- Takes a plain scalar. Behind a line break a key may start. -/
def takePlain (l : Lexer) : Option Lexer := do
  let l ← l.noteKey
  let (text, isBroken, cursor) ←
    readPlain l.inFlow l.innerColumn l.cursor.place [] .none l.cursor.text
  return ({ l with cursor }.allowKey isBroken).emit (.scalar text true)

/-- Takes a block scalar. -/
def takeBlockScalar (folded : Bool) (l : Lexer) : Option Lexer := do
  let l ← l.forgetKey
  let (text, cursor) ← readBlockScalar folded l.columns.head? (l.cursor.drop 1)
  return ({ l with cursor }.allowKey true).emit (.scalar text false)

/-- Takes the token that starts here. -/
def takeToken (l : Lexer) : Option Lexer := do
  let c := l.cursor
  let rest := c.text.tail
  let isFree := l.inFlow || endsWord rest
  if c.place.column = 0 && c.text.head? = some '%' then do
    let l ← l.closeAll
    let (t, cursor) ← readDirective (c.drop 1)
    return { l with cursor }.emit t
  else if c.atMark '-' then return (← l.closeAll).take 3 .documentStart
  else if c.atMark '.' then return (← l.closeAll).take 3 .documentEnd
  else match c.text.head? with
    | none => none
    | some '[' => l.openFlow .flowSequenceStart
    | some '\x7b' => l.openFlow .flowMappingStart
    | some ']' => l.closeFlow .flowSequenceEnd
    | some '\x7d' => l.closeFlow .flowMappingEnd
    | some ',' => return ((← l.forgetKey).allowKey true).take 1 .flowEntry
    | some '*' => l.takeKeyPart (readAnchor .alias)
    | some '&' => l.takeKeyPart (readAnchor .anchor)
    | some '!' => l.takeKeyPart fun c =>
      (readTag l.inFlow c).map fun (handle, rest, next) => (.tag handle rest, next)
    | some '\'' => l.takeKeyPart fun c =>
      (readSingle (c.drop 1).place [] .none rest).map fun (text, next) => (.scalar text false, next)
    | some '"' => l.takeKeyPart fun c =>
      (readDouble (c.drop 1).place [] .none rest).map fun (text, next) => (.scalar text false, next)
    | some d =>
      if d = '-' && endsWord rest then l.takeDash
      else if d = '?' && isFree then l.takeKeyMark
      else if d = ':' && isFree then l.takeColon
      else if d = '|' && !l.inFlow then l.takeBlockScalar false
      else if d = '>' && !l.inFlow then l.takeBlockScalar true
      else if startsPlain l.inFlow c.text then l.takePlain
      else none

/-- The tokens from here to the end of the text. Each takes at least one character, so as many
steps as there are characters are enough, and one more to end. -/
def run (fuel : Nat) (l : Lexer) : Option (List Token) :=
  match fuel with
  | 0 => none
  | fuel + 1 => do
    let l ← l.advance
    if l.cursor.text.isEmpty then return (← l.closeAll).tokens.reverse
    else run fuel (← l.takeToken)

end Lexer

/-- The tokens of a text; none if something in it starts no token. -/
def tokens? (text : List Char) : Option (List Token) :=
  if text.all isPrintable then
    let text := unifyBreaks text
    (Lexer.start text).run (text.length + 1)
  else none

end Spreadsheet.Yaml
