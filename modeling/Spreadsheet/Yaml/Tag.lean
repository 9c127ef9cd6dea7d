/-
Tags. A tag says what kind of value a node is. It is written whole between `!<` and `>`, or as a
handle and the rest behind it; a handle stands for the start of a tag, `!!` for that of the tags
every document knows. Octets that are no character of a tag are written as a percent sign and two
hexadecimal digits, and then make up characters; a tag ends before the first octet that is zero.
-/
import Spreadsheet.Yaml.Cursor
import Spreadsheet.Yaml.Resolved

namespace Spreadsheet.Yaml

/-- The octets of a tag. -/
abbrev Tag := List UInt8

/-- The tag that an ASCII text spells. -/
def Tag.ofString (s : String) : Tag :=
  s.toList.map fun c => UInt8.ofNat c.toNat

/-- The handles a document knows and the starts of tags they stand for. -/
abbrev Handles := List (List Char × Tag)

/-- The handles that every document knows. -/
def commonHandles : Handles :=
  [(['!'], .ofString "!"), (['!', '!'], .ofString "tag:yaml.org,2002:")]

/-- Whether a character may be part of a handle, an anchor or the name of a directive. -/
def isWordChar (c : Char) : Bool :=
  c.isAlphanum || c == '_' || c == '-'

/-- Whether a character may be part of a tag; some only between `!<` and `>`. -/
def isTagChar (isWhole : Bool) (c : Char) : Bool :=
  isWordChar c || ";/?:@&=+$.!~*'()".toList.contains c || (isWhole && ",[]".toList.contains c)

/-- The octet that two hexadecimal digits spell. -/
def octetOf? (high low : Char) : Option Nat :=
  numberIn? 16 [high, low]

/-- How many octets follow the first one of a character. -/
def followingOctets? (octet : Nat) : Option Nat :=
  if octet < 0x80 then some 0
  else if 0xC0 ≤ octet && octet < 0xE0 then some 1
  else if 0xE0 ≤ octet && octet < 0xF0 then some 2
  else if 0xF0 ≤ octet && octet < 0xF8 then some 3
  else none

/-- Reads the characters of a tag; `owed` octets are missing from a character. -/
def readTagChars (isWhole : Bool) (place : Place) (read : Tag) (owed : Nat) :
    List Char → Option (Tag × Cursor)
  | '%' :: high :: low :: rest => do
    let octet ← octetOf? high low
    let owed ← match owed with
      | 0 => followingOctets? octet
      | n + 1 => if 0x80 ≤ octet && octet < 0xC0 then some n else none
    readTagChars isWhole (((place.step '%').step high).step low) (UInt8.ofNat octet :: read) owed rest
  | c :: rest =>
    if owed ≠ 0 || c = '%' then none
    else if isTagChar isWhole c then
      readTagChars isWhole (place.step c) (UInt8.ofNat c.toNat :: read) 0 rest
    else some (read.reverse, ⟨place, c :: rest⟩)
  | [] => if owed = 0 then some (read.reverse, ⟨place, []⟩) else none

/-- The tag whose octets these are: those before the first zero. -/
def Tag.ofOctets (octets : List UInt8) : Tag :=
  octets.takeWhile (· != 0)

/-- Reads a tag or a part of one of at least one character. -/
def readTagPart (isWhole : Bool) (c : Cursor) : Option (Tag × Cursor) := do
  let (octets, next) ← readTagChars isWhole c.place [] 0 c.text
  if octets.isEmpty then none else return (.ofOctets octets, next)

/-- Reads a handle: `!`, word characters and another `!` if it is there. -/
def readHandle (c : Cursor) : Option (List Char × Cursor) :=
  if c.text.head? = some '!' then
    let (word, next) := (c.drop 1).span isWordChar
    if next.text.head? = some '!' then some ('!' :: word ++ ['!'], next.drop 1)
    else some ('!' :: word, next)
  else none

/-- Whether a handle has a `!` at either end. -/
def isClosed (handle : List Char) : Bool :=
  decide (2 ≤ handle.length) && handle.getLast? == some '!'

/-- Reads a tag: its handle, which is empty for a tag that is written whole, and the rest. A lone
`!` is a tag of its own. -/
def readTag (inFlow : Bool) (c : Cursor) : Option (List Char × Tag × Cursor) := do
  let (handle, rest, next) ←
    if c.text.take 2 = ['!', '<'] then do
      let (tag, next) ← readTagPart true (c.drop 2)
      if next.text.head? = some '>' then pure ([], tag, next.drop 1) else none
    else do
      let (handle, next) ← readHandle c
      if isClosed handle then do
        let (rest, next) ← readTagPart false next
        pure (handle, rest, next)
      else do
        let word := handle.tail.map fun c => UInt8.ofNat c.toNat
        let (octets, next) ← readTagChars false next.place word.reverse 0 next.text
        let rest := Tag.ofOctets octets
        pure (if rest.isEmpty then ([], Tag.ofString "!", next) else (['!'], rest, next))
  if endsWord next.text || (inFlow && next.text.head? == some ',') then return (handle, rest, next)
  else none

/-- The tag that a handle and a rest make; none if the handle is not known. -/
def Handles.tagOf? (handles : Handles) (handle : List Char) (rest : Tag) : Option Tag :=
  if handle.isEmpty then some rest
  else (handles.find? (·.1 == handle)).map fun known => known.2 ++ rest

namespace Tag

/-- The name of a tag of the document's own, which starts with `!`. -/
def localName? : Tag → Option String
  | [] => none
  | octet :: rest =>
    if octet = '!'.toNat.toUInt8 then String.fromUTF8? ⟨rest.toArray⟩ else none

end Tag

end Spreadsheet.Yaml
