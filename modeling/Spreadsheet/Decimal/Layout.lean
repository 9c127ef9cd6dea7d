/-
How numbers are written. A number is written with the fewest digits that read back, laid out by a
`NumberLayout`: which decimal exponents are written with all their places, whether a whole number
keeps a fraction, and the words for what is not finite. `fixedText` writes a given number of places
instead.
-/
import Spreadsheet.Decimal.Shortest

namespace Spreadsheet

/-- The decisions of a number format. -/
structure NumberLayout where
  /-- Which decimal exponents are written with all their places. -/
  positional : Int → Bool
  /-- Whether a whole number is written with a zero after the point. -/
  keepFraction : Bool
  /-- Which of two equally near shortest decimals is written. -/
  tie : Tie
  infinity : String
  negativeInfinity : String
  nan : String

/-- Digits without the zeros at their end; one digit always stays. -/
def dropTrailingZeros (digits : List Char) : List Char :=
  match (digits.reverse.dropWhile (· == '0')).reverse with
  | [] => digits.take 1
  | kept => kept

/-- Digits with a point before or after all of them or between two: `point` digits stand before
the point, zeros filling the places that no digit has. -/
def placePoint (keepFraction : Bool) (digits : List Char) (point : Int) : List Char :=
  if point ≤ 0 then '0' :: '.' :: List.replicate (-point).toNat '0' ++ digits
  else
    let whole := digits.take point.toNat ++ List.replicate (point.toNat - digits.length) '0'
    let fraction := digits.drop point.toNat
    if fraction.isEmpty then whole ++ (if keepFraction then ['.', '0'] else [])
    else whole ++ '.' :: fraction

/-- Digits with a point after the first and the exponent of the first, its sign always written. -/
def placeExponent (digits : List Char) (exponent : Int) : List Char :=
  let mantissa := match digits with
    | first :: [] => [first]
    | first :: rest => first :: '.' :: rest
    | [] => []
  mantissa ++ 'e' :: (if exponent < 0 then '-' else '+') :: decimalDigits exponent.natAbs

/-- A decimal laid out by a format. -/
def Decimal.layOut (layout : NumberLayout) (d : Decimal) : List Char :=
  let digits := decimalDigits d.coefficient
  let exponent : Int := d.exponent + digits.length - 1
  let shown := dropTrailingZeros digits
  if layout.positional exponent then placePoint layout.keepFraction shown (exponent + 1)
  else placeExponent shown exponent

/-- A number laid out by a format. -/
def NumberLayout.text (layout : NumberLayout) (x : Float) : String :=
  match Binary64.ofFloat? x with
  | none =>
    if x.isNaN then layout.nan else if x < 0 then layout.negativeInfinity else layout.infinity
  | some b =>
    let magnitude := if b.mantissa = 0 then (⟨0, 0⟩ : Decimal) else b.shortest layout.tie
    String.ofList ((if b.negative then ['-'] else []) ++ magnitude.layOut layout)

/-- Plain numbers have all their places, whole numbers no point, zero keeps its sign, and of two
equally near decimals the upper one is written. -/
def plainNumber : NumberLayout where
  positional _ := true
  keepFraction := false
  tie := .up
  infinity := "inf"
  negativeInfinity := "-inf"
  nan := "NaN"

/-- JSON numbers always have a point or an exponent; exponents are written below -5 and from 16 up,
of two equally near decimals the even one is written, and what is not finite is null. -/
def jsonNumber : NumberLayout where
  positional e := decide (-5 ≤ e) && decide (e < 16)
  keepFraction := true
  tie := .toEven
  infinity := "null"
  negativeInfinity := "null"
  nan := "null"

/-- A number as a cell shows it: plain, except that a zero has no sign. -/
def numberText (x : Float) : String :=
  if x == 0 then "0" else plainNumber.text x

/-- A non-negative finite number with a fixed number of places, ties to the even last digit. -/
def Binary64.fixedText (places : Nat) (x : Binary64) : String :=
  let scaled := scale (x.mantissa * Nat.pow 10 places) 1 x.exponent
  let digits := decimalDigits (roundDiv scaled.1 scaled.2 .toEven)
  let padded := List.replicate (places + 1 - digits.length) '0' ++ digits
  let point := padded.length - places
  String.ofList
    ((if x.negative then ['-'] else []) ++ padded.take point ++ '.' :: padded.drop point)

end Spreadsheet
