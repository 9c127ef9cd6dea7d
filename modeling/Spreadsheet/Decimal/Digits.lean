/-
Decimal digits. `decimalNumber` reads the number that digits spell, `decimalDigits` writes it with
no leading zero.
-/

namespace Spreadsheet

/-- The number that decimal digits spell; no digits spell zero. -/
def decimalNumber (digits : List Char) : Nat :=
  digits.foldl (fun n c => n * 10 + (c.toNat - '0'.toNat)) 0

/-- The decimal digits of a number, without leading zeros; zero is the single digit `0`. -/
def decimalDigits (n : Nat) : List Char :=
  Nat.toDigits 10 n

/-- The decimal text of a number. -/
def decimalText (n : Nat) : String :=
  String.ofList (decimalDigits n)

end Spreadsheet
