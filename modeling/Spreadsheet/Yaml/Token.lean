/-
The tokens of YAML text. Indentation is told by tokens of its own: a block collection starts and
ends with one, and every key of a mapping has one before it, whether or not a mark stands there.
-/
import Spreadsheet.Yaml.Tag

namespace Spreadsheet.Yaml

/-- A token. -/
inductive Token where
  /-- The version a document is written in. -/
  | version (major minor : Nat)
  /-- A handle a document knows, and the start of tags it stands for. -/
  | handle (name : List Char) (start : Tag)
  | documentStart
  | documentEnd
  | blockSequenceStart
  | blockMappingStart
  | blockEnd
  | flowSequenceStart
  | flowSequenceEnd
  | flowMappingStart
  | flowMappingEnd
  | blockEntry
  | flowEntry
  | key
  | value
  | alias (name : List Char)
  | anchor (name : List Char)
  | tag (handle : List Char) (rest : Tag)
  | scalar (text : List Char) (plain : Bool)
deriving DecidableEq, Inhabited

end Spreadsheet.Yaml
