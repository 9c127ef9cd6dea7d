/-
What scalars stand for: nothing, a truth value, a number or the text itself. Only a scalar written
plainly, without quotes, can stand for something other than its text, unless a tag says what it is.
-/
import Spreadsheet.Decimal.Literal

namespace Spreadsheet.Yaml

/-- What a scalar stands for. -/
inductive Resolved where
  | null
  | truth (b : Bool)
  /-- An integer of at most 64 bits, given by its sign and magnitude. -/
  | integer (negative : Bool) (magnitude : Nat)
  /-- A wider integer, which is no number of a cell. -/
  | wide
  | decimal (x : Float)
  | text (s : List Char)

/-- Plain words for nothing. -/
def nullWords : List String := ["", "~", "null", "Null", "NULL"]

/-- Plain words for true. -/
def trueWords : List String := ["true", "True", "TRUE"]

/-- Plain words for false. -/
def falseWords : List String := ["false", "False", "FALSE"]

/-- Plain words for infinity. -/
def infinityWords : List String := [".inf", ".Inf", ".INF"]

/-- Plain words for what is not a number. -/
def nanWords : List String := [".nan", ".NaN", ".NAN"]

/-- The value of a digit in a base up to sixteen. -/
def digitIn? (base : Nat) (c : Char) : Option Nat :=
  let value? : Option Nat :=
    if c.isDigit then some (c.toNat - '0'.toNat)
    else if 'a'.toNat ≤ c.toLower.toNat && c.toLower.toNat ≤ 'f'.toNat then
      some (c.toLower.toNat - 'a'.toNat + 10)
    else none
  value?.filter (· < base)

/-- The number that digits spell in a base; none if there is no digit or something else. -/
def numberIn? (base : Nat) (digits : List Char) : Option Nat :=
  if digits.isEmpty then none
  else digits.foldlM (fun n c => (digitIn? base c).map (n * base + ·)) 0

/-- The base that a mark before the digits announces, and the digits. -/
def splitBase : List Char → Nat × List Char
  | '0' :: 'x' :: digits => (16, digits)
  | '0' :: 'o' :: digits => (8, digits)
  | '0' :: 'b' :: digits => (2, digits)
  | digits => (10, digits)

/-- A sign and what follows it: whether the sign is a minus. -/
def splitSign : List Char → Bool × List Char
  | '-' :: rest => (true, rest)
  | '+' :: rest => (false, rest)
  | rest => (false, rest)

/-- Whether a text is digits that start with a superfluous zero, perhaps after a sign. Such a text
is no number. -/
def hasLeadingZero (s : List Char) : Bool :=
  match (splitSign s).2 with
  | '0' :: d :: rest => (d :: rest).all Char.isDigit
  | _ => false

/-- What an integer stands for: those of up to 64 bits and those of up to 128 bits are told apart,
and wider ones are left to be read as decimals. -/
def integerKind (negative : Bool) (n : Nat) : Option Resolved :=
  let word := if negative then Nat.pow 2 63 else Nat.pow 2 64 - 1
  let wide := if negative then Nat.pow 2 127 else Nat.pow 2 128 - 1
  if n ≤ word then some (.integer negative n)
  else if n ≤ wide then some .wide
  else none

/-- What a plain text stands for if it is an integer. -/
def readInteger (s : List Char) : Option Resolved :=
  if hasLeadingZero s then none
  else
    let (negative, rest) := splitSign s
    let (base, digits) := splitBase rest
    (numberIn? base digits).bind (integerKind negative)

/-- What a text stands for if it is a truth value. -/
def readTruth (s : List Char) : Option Bool :=
  let word := String.ofList s
  if word ∈ trueWords then some true else if word ∈ falseWords then some false else none

/-- The number that a text stands for if it is a finite decimal or a word for another number. -/
def readFloat (s : List Char) : Option Float :=
  let (negative, rest) := splitSign s
  if String.ofList rest ∈ infinityWords then some (Binary64.infinity negative)
  else if String.ofList s ∈ nanWords then some (0 / 0)
  else ((Decimal.read rest).map (Decimal.toFloat negative)).filter Float.isFinite

/-- What a plain text stands for. -/
def resolvePlain (s : List Char) : Resolved :=
  if String.ofList s ∈ nullWords then .null
  else match readTruth s, readInteger s with
    | some b, _ => .truth b
    | none, some r => r
    | none, none =>
      match (readFloat s).filter fun _ => !hasLeadingZero s with
      | some x => .decimal x
      | none => .text s

end Spreadsheet.Yaml
