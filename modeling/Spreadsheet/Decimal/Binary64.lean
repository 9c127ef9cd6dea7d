/-
Numbers in the 64-bit binary format, seen exactly: a finite number is a mantissa times a power of
two, and the number nearest to a quotient of integers is the one whose last bit is rounded to
nearest, a tie to the even mantissa. Both directions work on integers only, so what a text means
as a number, and what number a text shows, never depends on how arithmetic rounds on the way.
-/

namespace Spreadsheet

/-- Where a quotient halfway between two integers goes. -/
inductive Tie where
  | toEven
  | up
deriving DecidableEq

/-- The integer nearest to `num / den`, for a positive `den`. -/
def roundDiv (num den : Nat) (tie : Tie) : Nat :=
  let quotient := num / den
  let twice := 2 * (num % den)
  if twice < den then quotient
  else if den < twice then quotient + 1
  else match tie with
    | .toEven => quotient + quotient % 2
    | .up => quotient + 1

/-- A finite number: its magnitude is `mantissa * 2 ^ exponent`. -/
structure Binary64 where
  negative : Bool
  mantissa : Nat
  exponent : Int
deriving DecidableEq

namespace Binary64

/-- The number of bits of a mantissa below its leading bit. -/
def mantissaBits : Nat := 52

/-- The exponent of the last bit of the smallest numbers. -/
def minExponent : Int := -1074

/-- The word that stands for infinity. -/
def infinityBits : Nat := 2047 * Nat.pow 2 mantissaBits

/-- The parts of a finite number; none for an infinity or a NaN. -/
def ofFloat? (x : Float) : Option Binary64 :=
  let bits := x.toBits.toNat
  let fraction := bits % Nat.pow 2 mantissaBits
  let biased := bits / Nat.pow 2 mantissaBits % 2048
  let negative := Nat.pow 2 63 ≤ bits
  if biased = 2047 then none
  else if biased = 0 then some ⟨negative, fraction, minExponent⟩
  else some ⟨negative, fraction + Nat.pow 2 mantissaBits, minExponent + (biased - 1)⟩

/-- `num * 2 ^ e / den` as a quotient of integers, for an exponent of either sign. -/
def scale (num den : Nat) (e : Int) : Nat × Nat :=
  (num * Nat.pow 2 e.toNat, den * Nat.pow 2 (-e).toNat)

/-- The exponent of the leading bit of a positive quotient. -/
def leadingExponent (num den : Nat) : Int :=
  let guess : Int := (num.log2 : Int) - den.log2
  let scaled := scale num den (-guess)
  if scaled.2 ≤ scaled.1 then guess else guess - 1

/-- The bits of the non-negative number nearest to a quotient. -/
def nearestBits (num den : Nat) : Nat :=
  if num = 0 then 0
  else
    let e := max (leadingExponent num den - mantissaBits) minExponent
    let scaled := scale num den (-e)
    let mantissa := roundDiv scaled.1 scaled.2 .toEven
    min ((e - minExponent).toNat * Nat.pow 2 mantissaBits + mantissa) infinityBits

/-- The number nearest to a quotient, with the given sign. -/
def nearest (negative : Bool) (num den : Nat) : Float :=
  Float.ofBits (UInt64.ofNat (nearestBits num den + if negative then Nat.pow 2 63 else 0))

/-- Infinity with the given sign. -/
def infinity (negative : Bool) : Float :=
  Float.ofBits (UInt64.ofNat (infinityBits + if negative then Nat.pow 2 63 else 0))

end Binary64

end Spreadsheet
