/-
Documents. A text holds one document: perhaps directives, which need a mark behind them, then a
node. In a block a sequence may stand at the column of the mapping that holds it, and then has no
tokens of its own around it. Whatever is left out of an entry is an empty scalar.

Reading nodes takes a number that falls with each step; `Document.parse` starts it at three times
the number of tokens, at most two of three steps taking none.
-/
import Spreadsheet.Yaml.Lexer
import Spreadsheet.Yaml.Node

namespace Spreadsheet.Yaml

/-- What is left to read, and the number of the last anchor of each name. -/
structure Remaining where
  tokens : List Token
  numbers : List (List Char × Nat)

/-- Reading a part of a document. -/
abbrev Reader := StateT Remaining Option

namespace Reader

/-- The next token, if there is one. -/
def peek : Reader (Option Token) := do
  return (← get).tokens.head?

/-- Moves past a token. -/
def skip : Reader Unit :=
  modify fun r => { r with tokens := r.tokens.tail }

/-- Moves past a token if it is next, and says whether it was. -/
def skipIf (t : Token) : Reader Bool := do
  if (← peek) = some t then
    skip
    return true
  else return false

/-- Moves past a token that must be next. -/
def expect (t : Token) : Reader Unit := do
  if !(← skipIf t) then failure

/-- Whether one of some tokens is next. -/
def isNext (ts : List Token) : Reader Bool := do
  return (← peek).any ts.contains

/-- The number for an anchor with a name. -/
def numberAnchor (name : List Char) : Reader Nat := do
  let number := (← get).numbers.length
  modify fun r => { r with numbers := (name, number) :: r.numbers.filter fun n => n.1 != name }
  return number

/-- The number of the last anchor with a name. -/
def numberOf (name : List Char) : Reader Nat := do
  match (← get).numbers.lookup name with
  | some number => return number
  | none => failure

/-- The anchor that may stand here. -/
def readAnchor? : Reader (Option (List Char)) := do
  match ← peek with
  | some (.anchor name) =>
    skip
    return some name
  | _ => return none

/-- The tag that may stand here. -/
def readTag? (handles : Handles) : Reader (Option Tag) := do
  match ← peek with
  | some (.tag handle rest) =>
    skip
    match handles.tagOf? handle rest with
    | some tag => return some tag
    | none => failure
  | _ => return none

/-- The properties that may stand here, an anchor and a tag in either order. -/
def readProperties (handles : Handles) : Reader Properties := do
  let before ← readAnchor?
  let tag ← readTag? handles
  let anchor ← if before.isNone && tag.isSome then readAnchor? else pure before
  match anchor with
  | none => return ⟨none, tag⟩
  | some name => return ⟨some (← numberAnchor name), tag⟩

mutual

/-- Reads a node. In a block it may be a block collection; the value of a mapping there may be a
sequence without tokens around it. A lone `!` before a scalar is no tag. -/
def readNode (handles : Handles) (fuel : Nat) (inBlock inMapping : Bool) : Reader Node :=
  match fuel with
  | 0 => failure
  | fuel + 1 => do
    if let some (.alias name) := ← peek then
      skip
      return .alias (← numberOf name)
    let properties ← readProperties handles
    match ← peek with
    | some .blockEntry =>
      if inMapping then readBareItems handles fuel properties []
      else leftOut properties
    | some (.scalar text plain) =>
      skip
      if properties.tag = some (.ofString "!") then
        return .scalar { properties with tag := none } text plain
      else return .scalar properties text plain
    | some .flowSequenceStart =>
      skip
      if ← skipIf .flowSequenceEnd then return .sequence properties []
      else readFlowItems handles fuel properties []
    | some .flowMappingStart =>
      skip
      if ← skipIf .flowMappingEnd then return .mapping properties []
      else readFlowEntries handles fuel properties []
    | some .blockSequenceStart =>
      if inBlock then
        skip
        readBlockItems handles fuel properties []
      else leftOut properties
    | some .blockMappingStart =>
      if inBlock then
        skip
        readBlockEntries handles fuel properties []
      else leftOut properties
    | _ => leftOut properties
where
  /-- The scalar that is left out behind properties; without any a node must follow. -/
  leftOut (properties : Properties) : Reader Node :=
    if properties.anchor.isNone && properties.tag.isNone then failure
    else return .scalar properties [] true

/-- Reads a node, or what is left out if one of some tokens is next. -/
def readUnless (handles : Handles) (fuel : Nat) (inBlock inMapping : Bool) (ends : List Token) :
    Reader Node :=
  match fuel with
  | 0 => failure
  | fuel + 1 => do
    if ← isNext ends then return .empty else readNode handles fuel inBlock inMapping

/-- Reads the items of a block sequence to its end. -/
def readBlockItems (handles : Handles) (fuel : Nat) (properties : Properties) (items : List Node) :
    Reader Node :=
  match fuel with
  | 0 => failure
  | fuel + 1 => do
    if ← skipIf .blockEnd then return .sequence properties items.reverse
    expect .blockEntry
    let item ← readUnless handles fuel true false [.blockEntry, .blockEnd]
    readBlockItems handles fuel properties (item :: items)

/-- Reads the items of a sequence without tokens around it. -/
def readBareItems (handles : Handles) (fuel : Nat) (properties : Properties) (items : List Node) :
    Reader Node :=
  match fuel with
  | 0 => failure
  | fuel + 1 => do
    if ← skipIf .blockEntry then
      let item ← readUnless handles fuel true false [.blockEntry, .key, .value, .blockEnd]
      readBareItems handles fuel properties (item :: items)
    else return .sequence properties items.reverse

/-- Reads the entries of a block mapping to its end. -/
def readBlockEntries (handles : Handles) (fuel : Nat) (properties : Properties)
    (entries : List (Node × Node)) : Reader Node :=
  match fuel with
  | 0 => failure
  | fuel + 1 => do
    if ← skipIf .blockEnd then return .mapping properties entries.reverse
    expect .key
    let key ← readUnless handles fuel true true [.key, .value, .blockEnd]
    let value ← if ← skipIf .value then
        readUnless handles fuel true true [.key, .value, .blockEnd]
      else pure .empty
    readBlockEntries handles fuel properties ((key, value) :: entries)

/-- Reads the items of a flow sequence to its end; a key makes an item a mapping of that key. -/
def readFlowItems (handles : Handles) (fuel : Nat) (properties : Properties) (items : List Node) :
    Reader Node :=
  match fuel with
  | 0 => failure
  | fuel + 1 => do
    let item ← if ← skipIf .key then
        readFlowPair handles fuel
      else readNode handles fuel false false
    if ← skipIf .flowSequenceEnd then return .sequence properties (item :: items).reverse
    expect .flowEntry
    if ← skipIf .flowSequenceEnd then return .sequence properties (item :: items).reverse
    readFlowItems handles fuel properties (item :: items)

/-- Reads an item of a flow sequence behind the token for its key. If the key is left out the next
token is passed over. -/
def readFlowPair (handles : Handles) (fuel : Nat) : Reader Node :=
  match fuel with
  | 0 => failure
  | fuel + 1 => do
    let key ← if ← isNext [.value, .flowEntry, .flowSequenceEnd] then
        skip
        pure .empty
      else readNode handles fuel false false
    let value ← if ← skipIf .value then
        readUnless handles fuel false false [.flowEntry, .flowSequenceEnd]
      else pure .empty
    return .mapping .none [(key, value)]

/-- Reads the entries of a flow mapping to its end. -/
def readFlowEntries (handles : Handles) (fuel : Nat) (properties : Properties)
    (entries : List (Node × Node)) : Reader Node :=
  match fuel with
  | 0 => failure
  | fuel + 1 => do
    let entry ← if ← skipIf .key then do
        let key ← readUnless handles fuel false false [.value, .flowEntry, .flowMappingEnd]
        let value ← if ← skipIf .value then
            readUnless handles fuel false false [.flowEntry, .flowMappingEnd]
          else pure .empty
        pure (key, value)
      else do
        let key ← readNode handles fuel false false
        pure (key, .empty)
    if ← skipIf .flowMappingEnd then return .mapping properties (entry :: entries).reverse
    expect .flowEntry
    if ← skipIf .flowMappingEnd then return .mapping properties (entry :: entries).reverse
    readFlowEntries handles fuel properties (entry :: entries)

end

/-- Whether a version of the language can be read. -/
def isKnownVersion (major minor : Nat) : Bool :=
  major == 1 && (minor == 1 || minor == 2)

/-- Reads the directives before a document: a version at most once, and handles, each once. -/
def readDirectives (hasVersion : Bool) (handles : Handles) : List Token → Option (Handles × List Token)
  | .version major minor :: rest =>
    if hasVersion || !isKnownVersion major minor then none
    else readDirectives true handles rest
  | .handle name start :: rest =>
    if handles.any (·.1 == name) then none
    else readDirectives hasVersion (handles ++ [(name, start)]) rest
  | rest => some (handles, rest)

end Reader

/-- A document. -/
structure Document where
  root : Node
  /-- The nodes with an anchor and their numbers, the last first. -/
  anchored : List (Nat × Node)
  /-- The number of marks the root takes. -/
  marks : Nat

namespace Document

/-- The document with a root. -/
def ofRoot (root : Node) : Document := ⟨root, root.anchored [], root.marks⟩

/-- The node that an alias with a number stands for. -/
def target? (d : Document) (number : Nat) : Option Node :=
  d.anchored.lookup number

/-- Whether a document is over: only marks for its end may follow. -/
def isOver (tokens : List Token) : Bool :=
  tokens.all (· == .documentEnd)

/-- Reads the one document that tokens make. -/
def ofTokens? (tokens : List Token) : Option Document := do
  let (handles, rest) ← Reader.readDirectives false [] tokens
  let handles := handles ++ commonHandles
  let isMarked := rest.head? == some .documentStart
  if tokens.isEmpty || (!isMarked && decide (rest.length < tokens.length)) then none
  else
    let rest := if isMarked then rest.tail else rest
    if isMarked && isOver rest then return ofRoot .empty
    else
      let (root, rest) ← (Reader.readNode handles (3 * rest.length) true false).run ⟨rest, []⟩
      if isOver rest.tokens then return ofRoot root else none

/-- Reads the one document that a text holds. -/
def parse (text : List Char) : Option Document :=
  (tokens? text).bind ofTokens?

end Document

end Spreadsheet.Yaml
