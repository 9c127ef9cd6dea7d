/-
YAML documents as values. A node is a scalar, a sequence or a mapping, and may have a tag and an
anchor; an alias stands for the node with an anchor. Anchors are told by numbers: that of an anchor
is how many names anchors before it have, and where two have one number the later is meant.
-/
import Spreadsheet.Yaml.Resolved
import Spreadsheet.Yaml.Tag

namespace Spreadsheet.Yaml

/-- What a node may have beside its value. -/
structure Properties where
  anchor : Option Nat
  tag : Option Tag
deriving Inhabited

/-- A node without properties has these. -/
def Properties.none : Properties := ⟨Option.none, Option.none⟩

/-- A value of a document. -/
inductive Node where
  | alias (number : Nat)
  | scalar (properties : Properties) (text : List Char) (plain : Bool)
  | sequence (properties : Properties) (items : List Node)
  | mapping (properties : Properties) (entries : List (Node × Node))
deriving Inhabited

/-- What is written where a value is left out. -/
def Node.empty : Node := .scalar .none [] true

/-- Whether a node is a scalar that is left out, but for its properties. -/
def Node.isLeftOut : Node → Bool
  | .scalar _ [] true => true
  | _ => false

mutual

/-- The nodes with an anchor in a node, each with its number, put before some others, the last
first. -/
def Node.anchored (node : Node) (found : List (Nat × Node)) : List (Nat × Node) :=
  match node with
  | .alias _ => found
  | .scalar p text plain => withAnchor p (.scalar p text plain) found
  | .sequence p items => anchoredItems items (withAnchor p (.sequence p items) found)
  | .mapping p entries => anchoredEntries entries (withAnchor p (.mapping p entries) found)
where
  /-- A node with its number, if it has one, before others. -/
  withAnchor (p : Properties) (node : Node) (found : List (Nat × Node)) : List (Nat × Node) :=
    match p.anchor with
    | some number => (number, node) :: found
    | none => found

/-- The same for the items of a sequence. -/
def anchoredItems (items : List Node) (found : List (Nat × Node)) : List (Nat × Node) :=
  match items with
  | [] => found
  | item :: rest => anchoredItems rest (item.anchored found)

/-- The same for the entries of a mapping. -/
def anchoredEntries (entries : List (Node × Node)) (found : List (Nat × Node)) :
    List (Nat × Node) :=
  match entries with
  | [] => found
  | (key, value) :: rest => anchoredEntries rest (value.anchored (key.anchored found))

end

mutual

/-- The number of marks a node takes: one for a scalar or an alias, one for each end of a
collection. -/
def Node.marks : Node → Nat
  | .alias _ => 1
  | .scalar _ _ _ => 1
  | .sequence _ items => marksOfItems items + 2
  | .mapping _ entries => marksOfEntries entries + 2

/-- The same for the items of a sequence. -/
def marksOfItems : List Node → Nat
  | [] => 0
  | item :: rest => item.marks + marksOfItems rest

/-- The same for the entries of a mapping. -/
def marksOfEntries : List (Node × Node) → Nat
  | [] => 0
  | (key, value) :: rest => key.marks + value.marks + marksOfEntries rest

end

/-! ## What tagged scalars stand for -/

/-- The tag of truth values. -/
def truthTag : Tag := .ofString "tag:yaml.org,2002:bool"

/-- The tag of integers. -/
def integerTag : Tag := .ofString "tag:yaml.org,2002:int"

/-- The tag of numbers. -/
def floatTag : Tag := .ofString "tag:yaml.org,2002:float"

/-- The tag of what stands for nothing. -/
def nullTag : Tag := .ofString "tag:yaml.org,2002:null"

/-- What a scalar without a tag stands for. -/
def resolveUntagged (text : List Char) (plain : Bool) : Resolved :=
  if plain then resolvePlain text else .text text

/-- What a scalar stands for; none if its tag says what it is not, or is one of the document's
own. Other tags make it a text. -/
def resolveScalar (tag : Option Tag) (text : List Char) (plain : Bool) : Option Resolved :=
  match tag with
  | none => some (resolveUntagged text plain)
  | some tag =>
    if tag.localName?.isSome then none
    else if tag = truthTag then (readTruth text).map .truth
    else if tag = integerTag then readInteger text
    else if tag = floatTag then (readFloat text).map .decimal
    else if tag = nullTag then
      if !text.isEmpty && String.ofList text ∈ nullWords then some .null else none
    else if tag.head? = some '!'.toNat.toUInt8 then some (resolveUntagged text plain)
    else some (.text text)

end Spreadsheet.Yaml
