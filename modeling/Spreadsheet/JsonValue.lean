/-
JSON text. Objects keep the order of their fields. Compact text has no blanks; indented text puts
every item and field on a line of its own, two blanks deeper than what holds it, and writes empty
lists and objects on one line.
-/
import Spreadsheet.Decimal.Layout

namespace Spreadsheet

/-- A JSON value. -/
inductive JsonValue where
  | null
  | truth (b : Bool)
  | count (n : Nat)
  | number (x : Float)
  | text (s : String)
  | list (items : List JsonValue)
  | object (fields : List (String × JsonValue))
deriving Inhabited

namespace JsonValue

/-- The hexadecimal digits of a number below 2 ^ 16, always four. -/
def hexDigits4 (n : Nat) : List Char :=
  let digits := Nat.toDigits 16 n
  List.replicate (4 - digits.length) '0' ++ digits

/-- A character inside a JSON text. Control characters, quotes and backslashes are escaped. -/
def escape (c : Char) : List Char :=
  if c = '"' then ['\\', '"']
  else if c = '\\' then ['\\', '\\']
  else if c = '\n' then ['\\', 'n']
  else if c = '\r' then ['\\', 'r']
  else if c = '\t' then ['\\', 't']
  else if c = '\x08' then ['\\', 'b']
  else if c = '\x0c' then ['\\', 'f']
  else if c.toNat < 32 then '\\' :: 'u' :: hexDigits4 c.toNat
  else [c]

/-- A text in quotes. -/
def quote (s : String) : String :=
  String.ofList ('"' :: s.toList.flatMap escape ++ ['"'])

mutual

/-- The text of a value without blanks. -/
def compact : JsonValue → String
  | null => "null"
  | truth b => if b then "true" else "false"
  | count n => decimalText n
  | number x => jsonNumber.text x
  | text s => quote s
  | list items => "[" ++ String.intercalate "," (compactItems items) ++ "]"
  | object fields => "\x7b" ++ String.intercalate "," (compactFields fields) ++ "\x7d"

/-- The texts of the items of a list. -/
def compactItems : List JsonValue → List String
  | [] => []
  | item :: rest => compact item :: compactItems rest

/-- The texts of the fields of an object. -/
def compactFields : List (String × JsonValue) → List String
  | [] => []
  | (key, value) :: rest => (quote key ++ ":" ++ compact value) :: compactFields rest

end

/-- A line break and the blanks of a depth. -/
def newLine (depth : Nat) : String :=
  String.ofList ('\n' :: List.replicate (2 * depth) ' ')

/-- Lines between two brackets that stand at a depth. -/
def enclose (opening closing : String) (depth : Nat) (lines : List String) : String :=
  if lines.isEmpty then opening ++ closing
  else
    opening ++ newLine (depth + 1) ++ String.intercalate ("," ++ newLine (depth + 1)) lines ++
      newLine depth ++ closing

mutual

/-- The indented text of a value that stands at a depth. -/
def indented (depth : Nat) : JsonValue → String
  | null => "null"
  | truth b => if b then "true" else "false"
  | count n => decimalText n
  | number x => jsonNumber.text x
  | text s => quote s
  | list items => enclose "[" "]" depth (indentedItems (depth + 1) items)
  | object fields => enclose "\x7b" "\x7d" depth (indentedFields (depth + 1) fields)

/-- The indented texts of the items of a list. -/
def indentedItems (depth : Nat) : List JsonValue → List String
  | [] => []
  | item :: rest => indented depth item :: indentedItems depth rest

/-- The indented texts of the fields of an object. -/
def indentedFields (depth : Nat) : List (String × JsonValue) → List String
  | [] => []
  | (key, value) :: rest =>
    (quote key ++ ": " ++ indented depth value) :: indentedFields depth rest

end

end JsonValue

end Spreadsheet
