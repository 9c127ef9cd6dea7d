/-
Labels are read back as what they were written for. The letters of a column
spell its number (`columnNumber_columnLetters`), the digits of a row spell
its number, and the two parts are told apart because no letter is a digit
(`parseLabel_positionLabel`).
-/
import Spreadsheet.Proofs.Characters

namespace Spreadsheet

/-! ## Columns -/

theorem columnNumber_append (letters : List Char) (c : Char) :
    columnNumber (letters ++ [c]) = columnNumber letters * 26 + columnDigit c := by
  rw [columnNumber, List.foldl_append]
  rfl

theorem columnDigit_columnLetter {digit : Nat} (h : digit < 26) :
    columnDigit (columnLetter digit) = digit + 1 := by
  revert digit
  decide

theorem isAlpha_columnLetter {digit : Nat} (h : digit < 26) :
    (columnLetter digit).isAlpha = true := by
  revert digit
  decide

/-- **The letters of a column spell its number.** -/
theorem columnNumber_columnLetters (number : Nat) :
    columnNumber (columnLetters number) = number := by
  induction number using columnLetters.induct with
  | case1 => simp [columnLetters, columnNumber]
  | case2 number hzero ih =>
    have hdigit : (number - 1) % 26 < 26 := Nat.mod_lt _ (by decide)
    rw [columnLetters, if_neg hzero, columnNumber_append, ih, columnDigit_columnLetter hdigit]
    omega

theorem isAlpha_of_mem_columnLetters {number : Nat} {c : Char} (h : c ∈ columnLetters number) :
    c.isAlpha = true := by
  induction number using columnLetters.induct with
  | case1 => simp [columnLetters] at h
  | case2 number hzero ih =>
    rw [columnLetters, if_neg hzero, List.mem_append, List.mem_singleton] at h
    rcases h with h | rfl
    · exact ih h
    · exact isAlpha_columnLetter (Nat.mod_lt _ (by decide))

theorem columnLetters_ne_nil {number : Nat} (h : number ≠ 0) : columnLetters number ≠ [] := by
  rw [columnLetters, if_neg h]
  simp

theorem readColumn_columnLetters (col : UInt32) :
    readColumn (columnLetters (col.toNat + 1)) = some col := by
  have hne : columnLetters (col.toNat + 1) ≠ [] := columnLetters_ne_nil (by omega)
  have halpha : (columnLetters (col.toNat + 1)).all Char.isAlpha = true :=
    List.all_eq_true.2 fun _ => isAlpha_of_mem_columnLetters
  have hgrid : col.toNat + 1 ≤ gridSize := col.toNat_lt
  rw [readColumn, if_neg (by simp [hne, halpha]), columnNumber_columnLetters, if_pos hgrid]
  simp

/-! ## Rows -/

theorem decimalNumber_eq (digits : List Char) :
    decimalNumber digits = Nat.ofDigitChars 10 digits 0 := by
  rw [decimalNumber, Nat.ofDigitChars_eq_foldl]
  simp only [Nat.mul_comm]

theorem decimalNumber_decimalDigits (n : Nat) : decimalNumber (decimalDigits n) = n := by
  rw [decimalNumber_eq, decimalDigits, Nat.ofDigitChars_ten_toDigits]

theorem isDigit_of_mem_decimalDigits {n : Nat} {c : Char} (h : c ∈ decimalDigits n) :
    c.isDigit = true :=
  Nat.isDigit_of_mem_toDigits (b := 10) (by decide) (by decide) h

theorem decimalDigits_ne_nil (n : Nat) : decimalDigits n ≠ [] :=
  List.length_pos_iff.1 Nat.length_toDigits_pos

theorem readRow_decimalDigits (row : UInt32) :
    readRow (decimalDigits (row.toNat + 1)) = some row := by
  have hdigits : (decimalDigits (row.toNat + 1)).all Char.isDigit = true :=
    List.all_eq_true.2 fun _ => isDigit_of_mem_decimalDigits
  have hgrid : row.toNat + 1 ≤ gridSize := row.toNat_lt
  rw [readRow, if_neg (by simp [decimalDigits_ne_nil, hdigits]), decimalNumber_decimalDigits,
    if_pos ⟨by omega, hgrid⟩]
  simp

/-! ## Cells -/

theorem dropDollar_of_head {s : List Char} (h : ∀ c ∈ s.head?, c ≠ '$') : dropDollar s = s := by
  unfold dropDollar
  split
  · exact absurd rfl (h '$' rfl)
  · rfl

theorem toList_positionLabel (row col : UInt32) : (positionLabel row col).toList =
    columnLetters (col.toNat + 1) ++ decimalDigits (row.toNat + 1) := by
  rw [positionLabel, columnLabel, decimalText, String.toList_append, String.toList_ofList,
    String.toList_ofList]

/-- A dollar sign, or nothing. -/
def dollarIf (fixed : Bool) : List Char :=
  if fixed then ['$'] else []

theorem eq_of_mem_dollarIf {fixed : Bool} {c : Char} (h : c ∈ dollarIf fixed) : c = '$' := by
  cases fixed with
  | false => cases h
  | true => exact List.mem_singleton.1 h

theorem dropDollar_dollarIf {fixed : Bool} {s : List Char} (h : ∀ c ∈ s.head?, c ≠ '$') :
    dropDollar (dollarIf fixed ++ s) = s := by
  cases fixed with
  | false => exact dropDollar_of_head h
  | true => rfl

/-- Letters and digits are told apart, with dollar signs before them or without. -/
theorem labelParts_dollarIf (columnFixed rowFixed : Bool) {letters digits : List Char}
    (hne : letters ≠ []) (hletters : ∀ c ∈ letters, c.isAlpha = true)
    (hdigits : ∀ c ∈ digits, c.isDigit = true) :
    let s := dollarIf columnFixed ++ (letters ++ (dollarIf rowFixed ++ digits))
    labelLetters s = letters ∧ labelDigits s = digits := by
  intro s
  have hfirst : dropDollar s = letters ++ (dollarIf rowFixed ++ digits) := by
    refine dropDollar_dollarIf fun c hc => ?_
    rw [List.head?_append_of_ne_nil _ hne] at hc
    rintro rfl
    exact absurd (hletters '$' (List.mem_of_mem_head? hc)) (by decide)
  have hsecond : dropDollar (dollarIf rowFixed ++ digits) = digits := by
    refine dropDollar_dollarIf fun c hc => ?_
    rintro rfl
    exact absurd (hdigits '$' (List.mem_of_mem_head? hc)) (by decide)
  have hstop : ∀ c ∈ (dollarIf rowFixed ++ digits).head?, c.isAlpha = false := fun c hc => by
    cases rowFixed with
    | false => exact isAlpha_of_isDigit (hdigits c (List.mem_of_mem_head? hc))
    | true =>
      cases hc
      decide
  constructor
  · rw [labelLetters, hfirst, takeWhile_append_of_head hstop, List.takeWhile_eq_self_iff.2 hletters]
  · rw [labelDigits, hfirst, dropWhile_append_of_head hstop, List.dropWhile_eq_nil_iff.2 hletters,
      List.nil_append, hsecond]

theorem labelParts_append {letters digits : List Char} (hne : letters ≠ [])
    (hletters : ∀ c ∈ letters, c.isAlpha = true) (hdigits : ∀ c ∈ digits, c.isDigit = true) :
    labelLetters (letters ++ digits) = letters ∧ labelDigits (letters ++ digits) = digits :=
  labelParts_dollarIf false false hne hletters hdigits

/-- **A cell label is read back as the row and column it was written for.** -/
theorem parseLabel_positionLabel (row col : UInt32) :
    parseLabel (positionLabel row col) = some (row, col) := by
  have hparts := labelParts_append (columnLetters_ne_nil (Nat.succ_ne_zero col.toNat))
    (fun _ => isAlpha_of_mem_columnLetters) fun _ => isDigit_of_mem_decimalDigits (n := row.toNat + 1)
  rw [parseLabel, toList_positionLabel, readLabel, hparts.1, hparts.2, readColumn_columnLetters,
    readRow_decimalDigits]
  rfl

end Spreadsheet
