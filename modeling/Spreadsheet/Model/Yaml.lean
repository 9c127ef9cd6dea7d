/-
Models as YAML text. A model is a record of `config`, `names` and `sheets`, of which only the last
must be there; a sheet is a record of a `name` and perhaps `cells`; no other fields are allowed in
either, and none twice. A record is written as a mapping, or as a sequence of the values of its
fields in order. Where a text is needed any scalar is the text as it is written. Where a collection
is needed, nothing at all after the colon is an empty one. A key of `names` or `cells` that is
repeated counts as it stands last.

An alias is read as the node it stands for. That may happen at most a hundred times for each mark
of the document, so that a short text cannot spell a huge model.
-/
import Spreadsheet.Failure
import Spreadsheet.Model.Basic
import Spreadsheet.Yaml.Document

namespace Spreadsheet

open Yaml (Document Node Resolved)

namespace Model

/-- Reading a document, counting how often an alias has been followed. -/
abbrev Reading := ReaderT Document (StateT Nat Option)

/-- How often aliases may be followed for each mark of a document. -/
def followsPerMark : Nat := 100

/-- The node itself, or the one that an alias stands for. -/
def follow (node : Node) : Reading Node :=
  match node with
  | .alias number => do
    let d ← read
    let count := (← get) + 1
    if d.marks * followsPerMark < count then failure
    else
      set count
      match d.target? number with
      | some node => return node
      | none => failure
  | node => return node

/-- A scalar as the text it is written as. -/
def textOf (node : Node) : Reading String := do
  match ← follow node with
  | .scalar _ text _ => return String.ofList text
  | _ => failure

/-- The entries of a mapping, their keys as texts; nothing is the empty mapping. -/
def entriesOf (node : Node) : Reading (List (String × Node)) := do
  match ← follow node with
  | .mapping _ entries => entries.mapM fun (key, value) => return (← textOf key, value)
  | node => if node.isLeftOut then return [] else failure

/-- The items of a sequence; nothing is the empty sequence. -/
def itemsOf (node : Node) : Reading (List Node) := do
  match ← follow node with
  | .sequence _ items => return items
  | node => if node.isLeftOut then return [] else failure

/-- What is written for the fields of a record, by their names. -/
def fieldsOf (fields : List String) (node : Node) : Reading (List (String × Node)) := do
  match ← follow node with
  | .sequence _ items =>
    if items.length ≤ fields.length then return fields.zip items else failure
  | node => entriesOf node

/-- The values of a key among the entries of a mapping. -/
def valuesOf (key : String) (entries : List (String × Node)) : List Node :=
  (entries.filter fun e => e.1 == key).map (·.2)

/-- Whether the keys of a mapping are all allowed and none is repeated. -/
def hasFields (allowed : List String) (entries : List (String × Node)) : Bool :=
  entries.all (fun e => allowed.contains e.1) &&
    allowed.all fun key => decide ((valuesOf key entries).length ≤ 1)

/-- The value of a field that must be there. -/
def required (key : String) (entries : List (String × Node)) : Reading Node :=
  match valuesOf key entries with
  | [] => failure
  | value :: _ => return value

/-- The policy that a word names. -/
def policyOf? (word : String) : Option TextPolicy :=
  if word = "skip" then some .skip else if word = "error" then some .error else none

/-- Reads a policy: its name, as a scalar or as a tag on nothing. -/
def readPolicy (node : Node) : Reading TextPolicy := do
  match ← follow node with
  | .scalar p text plain =>
    let word ← match p.tag.bind Yaml.Tag.localName? with
      | none => pure (String.ofList text)
      | some word => if plain && String.ofList text ∈ Yaml.nullWords then pure word else failure
    match policyOf? word with
    | some policy => return policy
    | none => failure
  | _ => failure

/-- Reads the configuration; keys it does not know mean nothing. -/
def readConfig (node : Node) : Reading TextPolicy := do
  match valuesOf "text_in_aggregates" (← fieldsOf ["text_in_aggregates"] node) with
  | [] => return .skip
  | [word] => readPolicy word
  | _ => failure

/-- Reads the names. -/
def readNames (node : Node) : Reading (Std.ExtTreeMap String String) := do
  let pairs ← (← entriesOf node).mapM fun e => return (e.1, ← textOf e.2)
  return .ofList pairs

/-- What a scalar in a cell stands for. -/
def resolve (node : Node) : Reading Resolved := do
  match ← follow node with
  | .scalar p text plain =>
    match Yaml.resolveScalar p.tag text plain with
    | some r => return r
    | none => failure
  | _ => failure

/-- The explicit form of an entry that a key announces, by its name or its number. -/
def formOf? : Resolved → Option (String → CellEntry)
  | .integer false 0 => some .literal
  | .integer false 1 => some .formula
  | .text s =>
    if String.ofList s = "text" then some .literal
    else if String.ofList s = "formula" then some .formula
    else none
  | _ => none

/-- The entry that a scalar is. -/
def entryOf? : Resolved → Option CellEntry
  | .truth b => some (.boolean b)
  | .integer negative n => some (.number (Binary64.nearest (negative && n != 0) n 1))
  | .decimal x => some (.number x)
  | .text s => some (.text (String.ofList s))
  | .null | .wide => none

/-- Reads what a cell holds. A mapping of one key is an explicit form, unless it has a tag of the
document's own. -/
def readEntry (node : Node) : Reading CellEntry := do
  match ← follow node with
  | .mapping p [(key, value)] =>
    if (p.tag.bind Yaml.Tag.localName?).isSome then failure
    else
      let form := formOf? (← resolve key)
      match form, ← resolve value with
      | some form, .text s => return form (String.ofList s)
      | _, _ => failure
  | node =>
    match entryOf? (← resolve node) with
    | some entry => return entry
    | none => failure

/-- Reads the cells of a sheet. -/
def readCells (node : Node) : Reading (Std.ExtTreeMap String CellEntry) := do
  let pairs ← (← entriesOf node).mapM fun e => return (e.1, ← readEntry e.2)
  return .ofList pairs

/-- Reads a sheet. -/
def readSheet (node : Node) : Reading SheetModel := do
  let entries ← fieldsOf ["name", "cells"] node
  if !hasFields ["name", "cells"] entries then failure
  else
    let name ← textOf (← required "name" entries)
    let cells ← readCells ((valuesOf "cells" entries).headD .empty)
    return ⟨name, cells⟩

/-- Reads a model from the root of a document. -/
def readModel (node : Node) : Reading Model := do
  let entries ← fieldsOf ["config", "names", "sheets"] node
  if !hasFields ["config", "names", "sheets"] entries then failure
  else
    let policy ← readConfig ((valuesOf "config" entries).headD .empty)
    let names ← readNames ((valuesOf "names" entries).headD .empty)
    let sheets ← (← itemsOf (← required "sheets" entries)).mapM readSheet
    return ⟨policy, names, sheets⟩

/-- The model that a document holds. -/
def ofDocument? (d : Document) : Option Model :=
  ((readModel d.root).run d).run' 0

/-- Reads a model from YAML text. -/
def parse (text : String) : Except Failure Model :=
  match (Document.parse text.toList).bind ofDocument? with
  | some m => .ok m
  | none => .error .malformedModel

end Model

end Spreadsheet
