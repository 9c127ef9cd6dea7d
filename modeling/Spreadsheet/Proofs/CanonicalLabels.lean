/-
Labels and cells correspond. Every cell has a label that is read back as the
cell (`parseLabel_positionLabel`). The other way round, a text names a cell if
and only if it is the spelling of a label within the grid
(`LabelSpelling.exists_text`, `LabelSpelling.parseLabel_text`), and the label of
the cell is that spelling without dollar signs, in capitals and without leading
zeros (`LabelSpelling.positionLabel_eq_canonical`).
-/
import Spreadsheet.Proofs.Labels

namespace Spreadsheet

/-! ## Letters -/

theorem exists_columnDigit {c : Char} (h : c.isAlpha = true) :
    ∃ digit < 26, columnDigit c = digit + 1 ∧ columnLetter digit = c.toUpper := by
  have hbound : c.toNat < 123 := by
    rw [isAlpha_iff] at h
    omega
  revert h
  exact of_toNat_lt (P := fun c => c.isAlpha = true →
    ∃ digit < 26, columnDigit c = digit + 1 ∧ columnLetter digit = c.toUpper) (by decide) hbound

theorem columnLetters_succ (number : Nat) {digit : Nat} (h : digit < 26) :
    columnLetters (number * 26 + (digit + 1)) = columnLetters number ++ [columnLetter digit] := by
  have hquotient : (number * 26 + (digit + 1) - 1) / 26 = number := by omega
  have hremainder : (number * 26 + (digit + 1) - 1) % 26 = digit := by omega
  rw [columnLetters, if_neg (by omega), hquotient, hremainder]

/-- **The column that letters name is written with them in capitals.** -/
theorem columnLetters_columnNumber {letters : List Char} (h : ∀ c ∈ letters, c.isAlpha = true) :
    columnLetters (columnNumber letters) = letters.map Char.toUpper := by
  induction letters using List.reverseRecOn with
  | nil => simp [columnNumber, columnLetters]
  | append_singleton letters c ih =>
    obtain ⟨digit, hlt, hdigit, hletter⟩ := exists_columnDigit (h c (by simp))
    rw [columnNumber_append, hdigit, columnLetters_succ _ hlt, ih fun d hd => h d (by simp [hd]),
      hletter, List.map_append, List.map_singleton]

theorem foldl_eq_ofDigits (base : Nat) (digit : Char → Nat) (s : List Char) :
    s.foldl (fun n c => n * base + digit c) 0 = Nat.ofDigits base (s.reverse.map digit) := by
  induction s using List.reverseRecOn with
  | nil => rfl
  | append_singleton s c ih =>
    rw [List.foldl_append, ih, List.reverse_append, List.reverse_singleton, List.singleton_append,
      List.map_cons, Nat.ofDigits_cons, Nat.add_comm, Nat.mul_comm base]
    rfl

theorem columnNumber_eq_ofDigits (letters : List Char) :
    columnNumber letters = Nat.ofDigits 26 (letters.reverse.map columnDigit) :=
  foldl_eq_ofDigits 26 columnDigit letters

theorem columnNumber_pos {letters : List Char} (h : letters ≠ []) : 0 < columnNumber letters := by
  obtain ⟨front, c, rfl⟩ := (List.eq_nil_or_concat' letters).resolve_left h
  rw [columnNumber_append, columnDigit]
  omega

/-! ## Digits -/

theorem decimalNumber_append (digits : List Char) (c : Char) :
    decimalNumber (digits ++ [c]) = decimalNumber digits * 10 + (c.toNat - '0'.toNat) := by
  rw [decimalNumber, List.foldl_append]
  rfl

theorem exists_digitChar {c : Char} (h : c.isDigit = true) :
    ∃ digit < 10, c.toNat - '0'.toNat = digit ∧ digit.digitChar = c := by
  have hbound : c.toNat < 58 := by
    rw [isDigit_iff] at h
    omega
  revert h
  exact of_toNat_lt (P := fun c => c.isDigit = true →
    ∃ digit < 10, c.toNat - '0'.toNat = digit ∧ digit.digitChar = c) (by decide) hbound

theorem decimalNumber_eq_ofDigits (digits : List Char) :
    decimalNumber digits = Nat.ofDigits 10 (digits.reverse.map fun c => c.toNat - '0'.toNat) :=
  foldl_eq_ofDigits 10 _ digits

/-- **The number that digits spell is written with them, without leading zeros**, unless they are
all zeros. -/
theorem decimalDigits_decimalNumber {digits : List Char} (h : ∀ c ∈ digits, c.isDigit = true) :
    decimalNumber digits = 0 ∧ digits.dropWhile (· == '0') = [] ∨
      0 < decimalNumber digits ∧
        decimalDigits (decimalNumber digits) = digits.dropWhile (· == '0') := by
  induction digits using List.reverseRecOn with
  | nil => exact .inl ⟨rfl, rfl⟩
  | append_singleton digits c ih =>
    obtain ⟨digit, hlt, hdigit, hchar⟩ := exists_digitChar (h c (by simp))
    rw [decimalNumber_append, hdigit, List.dropWhile_append]
    rcases ih fun d hd => h d (by simp [hd]) with ⟨hzero, hnil⟩ | ⟨hpos, hdigits⟩
    · rw [hzero, hnil, Nat.zero_mul, Nat.zero_add, List.isEmpty_nil, if_pos rfl, decimalDigits,
        Nat.toDigits_of_lt_base hlt, ← hchar]
      rcases Nat.eq_zero_or_pos digit with rfl | hpos
      · exact .inl ⟨rfl, rfl⟩
      · have hne : ¬ digit.digitChar = '0' := mt Nat.digitChar_eq_zero.1 (by omega)
        exact .inr ⟨hpos, by simp [hne]⟩
    · have hne : digits.dropWhile (· == '0') ≠ [] := hdigits ▸ decimalDigits_ne_nil _
      refine .inr ⟨by omega, ?_⟩
      rw [if_neg (by simpa using hne), ← hdigits, decimalDigits, Nat.mul_comm,
        ← Nat.toDigits_append_toDigits (by decide) hpos hlt, Nat.toDigits_of_lt_base hlt, hchar]
      rfl

/-! ## Rows and columns -/

theorem ofNat_pred_eq_iff {number : Nat} (hpos : 1 ≤ number) (hgrid : number ≤ gridSize)
    {w : UInt32} : UInt32.ofNat (number - 1) = w ↔ number = w.toNat + 1 := by
  have hlt : number - 1 < UInt32.size := by
    rw [gridSize] at hgrid
    omega
  rw [← UInt32.toNat_inj, UInt32.toNat_ofNat_of_lt' hlt]
  omega

theorem exists_toNat_succ {number : Nat} (hpos : 1 ≤ number) (hgrid : number ≤ gridSize) :
    ∃ w : UInt32, number = w.toNat + 1 :=
  ⟨_, (ofNat_pred_eq_iff hpos hgrid).1 rfl⟩

/-- What is read of one part of a label: characters of one class that spell a number within the
grid. -/
theorem readPart_eq_some {p : Char → Bool} {s : List Char} {number : Nat} {inGrid : Prop}
    [Decidable inGrid] (hgrid : s ≠ [] → (inGrid ↔ 1 ≤ number ∧ number ≤ gridSize)) {w : UInt32} :
    (if s.isEmpty || !s.all p then none
      else if inGrid then some (UInt32.ofNat (number - 1)) else none) = some w ↔
      (s ≠ [] ∧ ∀ c ∈ s, p c = true) ∧ number = w.toNat + 1 := by
  have hshape : (s.isEmpty || !s.all p) = true ↔ ¬ (s ≠ [] ∧ ∀ c ∈ s, p c = true) := by
    rw [Bool.or_eq_true, List.isEmpty_iff, Bool.not_eq_true', ← Bool.not_eq_true, List.all_eq_true]
    tauto
  by_cases hgood : s ≠ [] ∧ ∀ c ∈ s, p c = true
  · have hw : w.toNat + 1 ≤ gridSize := w.toNat_lt
    rw [if_neg (mt hshape.1 (not_not.2 hgood)), and_iff_right hgood]
    by_cases hin : inGrid
    · obtain ⟨hpos, hle⟩ := (hgrid hgood.1).1 hin
      rw [if_pos hin, Option.some.injEq, ofNat_pred_eq_iff hpos hle]
    · rw [if_neg hin]
      rw [hgrid hgood.1] at hin
      simp only [reduceCtorEq, false_iff]
      omega
  · rw [if_pos (hshape.2 hgood)]
    simp only [reduceCtorEq, hgood, false_and]

theorem readColumn_eq_some {letters : List Char} {col : UInt32} :
    readColumn letters = some col ↔ (letters ≠ [] ∧ ∀ c ∈ letters, c.isAlpha = true) ∧
      columnNumber letters = col.toNat + 1 :=
  readPart_eq_some fun hne => ⟨fun h => ⟨columnNumber_pos hne, h⟩, And.right⟩

theorem readRow_eq_some {digits : List Char} {row : UInt32} :
    readRow digits = some row ↔ (digits ≠ [] ∧ ∀ c ∈ digits, c.isDigit = true) ∧
      decimalNumber digits = row.toNat + 1 :=
  readPart_eq_some fun _ => Iff.rfl

/-! ## Labels -/

theorem parseLabel_eq_some {text : String} {row col : UInt32} : parseLabel text = some (row, col) ↔
    readColumn (labelLetters text.toList) = some col ∧
      readRow (labelDigits text.toList) = some row := by
  simp only [parseLabel, readLabel, Option.bind_eq_bind, Option.bind_eq_some_iff, Option.pure_def,
    Option.some.injEq, Prod.mk.injEq]
  constructor
  · rintro ⟨_, hcol, _, hrow, rfl, rfl⟩
    exact ⟨hcol, hrow⟩
  · rintro ⟨hcol, hrow⟩
    exact ⟨col, hcol, row, hrow, rfl, rfl⟩

theorem exists_dollarIf (s : List Char) : ∃ fixed, s = dollarIf fixed ++ dropDollar s := by
  unfold dropDollar
  split
  · exact ⟨true, rfl⟩
  · exact ⟨false, rfl⟩

/-- How a label can be spelled: letters and digits, at least one of each, with a dollar sign before
either or without. -/
structure LabelSpelling where
  columnFixed : Bool
  letters : List Char
  rowFixed : Bool
  digits : List Char
  letters_ne_nil : letters ≠ []
  isAlpha_of_mem : ∀ c ∈ letters, c.isAlpha = true
  digits_ne_nil : digits ≠ []
  isDigit_of_mem : ∀ c ∈ digits, c.isDigit = true

namespace LabelSpelling

/-- The text of a spelling. -/
def text (s : LabelSpelling) : String :=
  String.ofList (dollarIf s.columnFixed ++ (s.letters ++ (dollarIf s.rowFixed ++ s.digits)))

/-- The number of the column: its letters are digits from 1 to 26, with powers of 26 as their place
values. -/
def column (s : LabelSpelling) : Nat :=
  Nat.ofDigits 26 (s.letters.reverse.map columnDigit)

/-- The number of the row, with powers of ten as the place values of its digits. -/
def row (s : LabelSpelling) : Nat :=
  Nat.ofDigits 10 (s.digits.reverse.map fun c => c.toNat - '0'.toNat)

/-- The spelling without dollar signs, in capitals and without leading zeros. -/
def canonical (s : LabelSpelling) : String :=
  String.ofList (s.letters.map Char.toUpper ++ s.digits.dropWhile (· == '0'))

theorem column_pos (s : LabelSpelling) : 1 ≤ s.column := by
  rw [column, ← columnNumber_eq_ofDigits]
  exact columnNumber_pos s.letters_ne_nil

/-- **A spelling names the cell whose numbers its letters and its digits spell.** -/
theorem parseLabel_text (s : LabelSpelling) {row col : UInt32} :
    parseLabel s.text = some (row, col) ↔ s.column = col.toNat + 1 ∧ s.row = row.toNat + 1 := by
  obtain ⟨hletters, hdigits⟩ := labelParts_dollarIf s.columnFixed s.rowFixed s.letters_ne_nil
    s.isAlpha_of_mem s.isDigit_of_mem
  have hcolumn : readColumn s.letters = some col ↔ s.column = col.toNat + 1 := by
    rw [readColumn_eq_some, and_iff_right ⟨s.letters_ne_nil, s.isAlpha_of_mem⟩,
      columnNumber_eq_ofDigits, column]
  have hrow : readRow s.digits = some row ↔ s.row = row.toNat + 1 := by
    rw [readRow_eq_some, and_iff_right ⟨s.digits_ne_nil, s.isDigit_of_mem⟩,
      decimalNumber_eq_ofDigits, LabelSpelling.row]
  rw [parseLabel_eq_some, text, String.toList_ofList, hletters, hdigits, hcolumn, hrow]

theorem exists_text {text : String} {row col : UInt32} (h : parseLabel text = some (row, col)) :
    ∃ s : LabelSpelling, s.text = text := by
  obtain ⟨hcol, hrow⟩ := parseLabel_eq_some.1 h
  obtain ⟨⟨hletters, halpha⟩, -⟩ := readColumn_eq_some.1 hcol
  obtain ⟨⟨hdigits, hdigit⟩, -⟩ := readRow_eq_some.1 hrow
  obtain ⟨columnFixed, hfirst⟩ := exists_dollarIf text.toList
  obtain ⟨rowFixed, hsecond⟩ := exists_dollarIf ((dropDollar text.toList).dropWhile Char.isAlpha)
  refine ⟨⟨columnFixed, _, rowFixed, _, hletters, halpha, hdigits, hdigit⟩, ?_⟩
  change String.ofList (dollarIf columnFixed ++ ((dropDollar text.toList).takeWhile Char.isAlpha ++
    (dollarIf rowFixed ++ dropDollar ((dropDollar text.toList).dropWhile Char.isAlpha)))) = text
  rw [← hsecond, List.takeWhile_append_dropWhile, ← hfirst, String.ofList_toList]

/-- **The label of a cell is the canonical form of all its spellings.** -/
theorem positionLabel_eq_canonical {s : LabelSpelling} {row col : UInt32}
    (h : parseLabel s.text = some (row, col)) : positionLabel row col = s.canonical := by
  obtain ⟨hcol, hrow⟩ := s.parseLabel_text.1 h
  rw [column, ← columnNumber_eq_ofDigits] at hcol
  rw [LabelSpelling.row, ← decimalNumber_eq_ofDigits] at hrow
  have hdigits := (decimalDigits_decimalNumber s.isDigit_of_mem).resolve_left (by omega)
  rw [← String.ofList_toList (s := positionLabel row col), toList_positionLabel, ← hcol, ← hrow,
    columnLetters_columnNumber s.isAlpha_of_mem, hdigits.2, canonical]

end LabelSpelling

/--
**Labels and cells correspond.** The label of every cell is read back as its row and column, and the
label of every column as the column. A text names a cell if and only if it is an optional dollar
sign, letters, an optional dollar sign and digits, where the letters spell a number of at most 2^32
and the digits a number from 1 to 2^32; and the label of that cell is the text without its dollar
signs, in capitals and without leading zeros.
-/
theorem labels_correspond_to_cells :
    (∀ row col, parseLabel (positionLabel row col) = some (row, col)) ∧
      (∀ col, parseColumnLabel (columnLabel col) = some col) ∧
      (∀ text, (∃ row col, parseLabel text = some (row, col)) ↔
        ∃ s : LabelSpelling, s.text = text ∧ s.column ≤ 2 ^ 32 ∧ 1 ≤ s.row ∧ s.row ≤ 2 ^ 32) ∧
      ∀ (s : LabelSpelling) (row col : UInt32), parseLabel s.text = some (row, col) →
        s.column = col.toNat + 1 ∧ s.row = row.toNat + 1 ∧ positionLabel row col = s.canonical := by
  refine ⟨parseLabel_positionLabel, fun col => ?_, fun text => ⟨?_, ?_⟩, fun s row col h => ?_⟩
  · rw [columnLabel, parseColumnLabel, String.toList_ofList, readColumn_columnLetters]
  · rintro ⟨row, col, h⟩
    obtain ⟨s, rfl⟩ := LabelSpelling.exists_text h
    obtain ⟨hcolumn, hrow⟩ := s.parseLabel_text.1 h
    have hcol : col.toNat + 1 ≤ 2 ^ 32 := col.toNat_lt
    have hlast : row.toNat + 1 ≤ 2 ^ 32 := row.toNat_lt
    exact ⟨s, rfl, by omega, by omega, by omega⟩
  · rintro ⟨s, rfl, hcolumn, hpos, hrow⟩
    obtain ⟨row, hlast⟩ := exists_toNat_succ hpos hrow
    obtain ⟨col, hcol⟩ := exists_toNat_succ s.column_pos hcolumn
    exact ⟨row, col, s.parseLabel_text.2 ⟨hcol, hlast⟩⟩
  · obtain ⟨hcolumn, hrow⟩ := s.parseLabel_text.1 h
    exact ⟨hcolumn, hrow, LabelSpelling.positionLabel_eq_canonical h⟩

/-- The last cell of the grid, spelled with dollar signs, a small letter and leading zeros. -/
theorem labels_correspond_to_cells_last :
    let s : LabelSpelling := ⟨true, ['m', 'W', 'L', 'Q', 'K', 'W', 'V'], true,
      ['0', '0', '4', '2', '9', '4', '9', '6', '7', '2', '9', '6'], by simp, by simp, by simp,
      by simp⟩
    (s.text = "$mWLQKWV$004294967296" ∧
        parseLabel s.text = some (4294967295, 4294967295)) ∧
      s.column = 2 ^ 32 ∧ s.row = 2 ^ 32 ∧
      positionLabel 4294967295 4294967295 = "MWLQKWV4294967296" := by
  intro s
  have hread : parseLabel s.text = some (4294967295, 4294967295) := by cbv
  obtain ⟨hcolumn, hrow, hlabel⟩ := labels_correspond_to_cells.2.2.2 s _ _ hread
  have hcanonical : s.canonical = "MWLQKWV4294967296" := by cbv
  exact ⟨⟨by cbv, hread⟩, hcolumn, hrow, hlabel.trans hcanonical⟩

end Spreadsheet
