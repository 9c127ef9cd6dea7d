/-
Decimal literals. A literal is digits with at most one point among, before or after them, and
perhaps an exponent; its value is the number nearest to what it spells, however many digits and
however large an exponent it has.
-/
import Spreadsheet.Decimal.Binary64
import Spreadsheet.Decimal.Digits

namespace Spreadsheet

/-- The non-negative decimal fraction `coefficient * 10 ^ exponent`. -/
structure Decimal where
  coefficient : Nat
  exponent : Int
deriving DecidableEq

namespace Decimal

/-- Powers of ten above this are beyond every finite number, and below its negation nearer to zero
than to any other number. -/
def exponentLimit : Nat := 400

/-- The number nearest to a decimal, with the given sign. -/
def toFloat (negative : Bool) (d : Decimal) : Float :=
  if d.coefficient = 0 then Binary64.nearest negative 0 1
  else if d.exponent > exponentLimit then Binary64.infinity negative
  else if d.exponent + exponentLimit + d.coefficient.log2 < 0 then Binary64.nearest negative 0 1
  else
    Binary64.nearest negative (d.coefficient * Nat.pow 10 d.exponent.toNat)
      (Nat.pow 10 (-d.exponent).toNat)

/-- Reads a run of digits, at least one, and nothing else. -/
def readDigits (s : List Char) : Option Nat :=
  if s.isEmpty || !s.all Char.isDigit then none else some (decimalNumber s)

/-- Reads the digits of an exponent after its optional sign. -/
def readSignedDigits : List Char → Option Int
  | '-' :: rest => (readDigits rest).map fun n => -(n : Int)
  | '+' :: rest => (readDigits rest).map Int.ofNat
  | rest => (readDigits rest).map Int.ofNat

/-- Reads what may follow the digits of a literal: nothing, or an exponent mark and an exponent. -/
def readExponent : List Char → Option Int
  | [] => some 0
  | c :: rest => if c = 'e' || c = 'E' then readSignedDigits rest else none

/-- The digits after a point and what follows them; no digits if there is no point. -/
def splitFraction : List Char → List Char × List Char
  | '.' :: rest => (rest.takeWhile Char.isDigit, rest.dropWhile Char.isDigit)
  | rest => ([], rest)

/-- Reads a literal without a sign. -/
def read (s : List Char) : Option Decimal :=
  let whole := s.takeWhile Char.isDigit
  let (fraction, rest) := splitFraction (s.dropWhile Char.isDigit)
  if whole.isEmpty && fraction.isEmpty then none
  else (readExponent rest).map fun e => ⟨decimalNumber (whole ++ fraction), e - fraction.length⟩

end Decimal

/-- The number a literal without a sign spells. -/
def readNumber (s : List Char) : Option Float :=
  (Decimal.read s).map (Decimal.toFloat false)

end Spreadsheet
