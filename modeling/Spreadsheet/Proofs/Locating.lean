/-
Labels lead back to their cells. A label with its sheet before it is split
at its last `!` (`splitAtLastBang_append`), the quotes that were doubled in
the name of the sheet are read as one (`undoubleQuotes_doubleQuotes`), and
no blank stands at either end. What is read back is the cell that was
written, on every sheet but one: two quotes with nothing between them are
not taken for the name of a sheet (`readSheetName_quoteSheetName`).
-/
import Spreadsheet.Workbook.Locate
import Spreadsheet.Proofs.Lines
import Spreadsheet.Proofs.Printing

namespace Spreadsheet

/-! ## Quotes -/

theorem undoubleQuotes_cons {quote c : Char} (h : c ≠ quote) (s : List Char) :
    undoubleQuotes quote (c :: s) = (undoubleQuotes quote s).map (c :: ·) := by
  cases s with
  | nil => simp [undoubleQuotes, h]
  | cons d s => rw [undoubleQuotes, if_neg h]

theorem undoubleQuotes_doubleQuotes (quote : Char) (s : List Char) :
    undoubleQuotes quote (doubleQuotes quote s) = some s := by
  induction s with
  | nil => rfl
  | cons c s ih =>
    by_cases h : c = quote
    · rw [doubleQuotes, if_pos h, undoubleQuotes, if_pos h, if_pos h, ih, h, Option.map_some]
    · rw [doubleQuotes, if_neg h, undoubleQuotes_cons h, ih, Option.map_some]

theorem isEmpty_doubleQuotes (quote : Char) (s : List Char) :
    (doubleQuotes quote s).isEmpty = s.isEmpty := by
  cases s with
  | nil => rfl
  | cons c s =>
    rw [doubleQuotes]
    split <;> rfl

/-! ## Sheet names -/

/-- An identifier starts with no blank, and no mark of a reference is part of it. -/
theorem marks_of_isIdentifier {s : List Char} (h : isIdentifier s = true) :
    (∀ c ∈ s.head?, isBlank c = false) ∧ ∀ c ∈ s, c ≠ '\'' ∧ c ≠ '!' := by
  cases s with
  | nil => cases h
  | cons c rest =>
    rw [isIdentifier, Bool.and_eq_true, List.all_eq_true] at h
    obtain ⟨hstart, hrest⟩ := h
    refine ⟨fun d hd => ?_, fun d hd => ?_⟩
    · obtain rfl : c = d := by simpa using hd
      exact isBlank_of_isIdentifierStart hstart
    · rcases List.mem_cons.1 hd with rfl | hd
      · constructor <;> rintro rfl <;> exact absurd hstart (by decide)
      · have hpart := hrest d hd
        constructor <;> rintro rfl <;> exact absurd hpart (by decide)

theorem readSheetName_bare {s : List Char} (hne : s ≠ []) (h : ∀ c ∈ s, c ≠ '\'' ∧ c ≠ '!') :
    readSheetName s = some s := by
  have hany : (s.any fun c => c == '\'' || c == '!') = false := by
    simpa using h
  unfold readSheetName
  split
  · exact absurd rfl hne
  · exact absurd rfl (h '\'' List.mem_cons_self).1
  · rw [hany, if_neg (by simp)]

theorem readSheetName_enquote (s : List Char) :
    readSheetName (enquote '\'' s) = if s.isEmpty then none else some s := by
  rw [enquote, List.cons_append, readSheetName, readQuotedName, List.reverse_append]
  simp only [List.reverse_singleton, List.singleton_append, List.isEmpty_reverse,
    isEmpty_doubleQuotes, List.reverse_reverse, undoubleQuotes_doubleQuotes]

/-- **The name of a sheet is read as it was written, unless it is empty.** -/
theorem readSheetName_quoteSheetName (name : String) : readSheetName (quoteSheetName name).toList =
    if name.toList.isEmpty then none else some name.toList := by
  unfold quoteSheetName
  split
  · rename_i hplain
    have hne : name.toList ≠ [] := by
      intro hnil
      rw [hnil] at hplain
      cases hplain
    rw [readSheetName_bare hne (marks_of_isIdentifier (isIdentifier_of_isPlainSheetName hplain)).2,
      if_neg (by simpa using hne)]
  · rw [String.toList_ofList, readSheetName_enquote]

theorem isBlank_head_quoteSheetName (name : String) :
    ∀ c ∈ (quoteSheetName name).toList.head?, isBlank c = false := by
  unfold quoteSheetName
  split
  · rename_i hplain
    exact (marks_of_isIdentifier (isIdentifier_of_isPlainSheetName hplain)).1
  · intro c hc
    obtain rfl : '\'' = c := by simpa [enquote] using hc
    decide

/-! ## Labels -/

theorem splitAtLastBang_append {sheet label : List Char} (h : ∀ c ∈ label, c ≠ '!') :
    splitAtLastBang (sheet ++ '!' :: label) = (some sheet, label) := by
  have hlast : ((sheet ++ '!' :: label).reverse.takeWhile (· != '!')).reverse = label := by
    rw [List.reverse_append, List.reverse_cons, List.append_assoc,
      List.takeWhile_append_of_pos (by simpa using h)]
    simp
  have hlength : (sheet ++ '!' :: label).length = sheet.length + label.length + 1 := by
    simp only [List.length_append, List.length_cons]
    omega
  have hbefore : sheet.length + label.length + 1 - label.length - 1 = sheet.length := by omega
  simp only [splitAtLastBang, hlast, hlength, hbefore, List.take_left]
  rw [if_neg (by omega)]

theorem isLabelShaped_label (cell : CellAddress) : isLabelShaped cell.label.toList = true := by
  have hletters : columnLetters (cell.col.toNat + 1) ≠ [] :=
    columnLetters_ne_nil (Nat.succ_ne_zero _)
  have hdigits : ∀ c ∈ decimalDigits (cell.row.toNat + 1), c.isDigit = true := fun _ =>
    isDigit_of_mem_decimalDigits
  obtain ⟨hfirst, hsecond⟩ := labelParts_append hletters (fun _ => isAlpha_of_mem_columnLetters)
    hdigits
  rw [CellAddress.label, toList_positionLabel]
  simp only [isLabelShaped, hfirst, hsecond, Bool.and_eq_true, Bool.not_eq_true',
    List.isEmpty_eq_false_iff, List.all_eq_true]
  exact ⟨⟨hletters, decimalDigits_ne_nil _⟩, hdigits⟩

/-- A reference starts with a quote or a letter and ends in a digit. -/
theorem trimChars_reference (name : String) (cell : CellAddress) :
    trimChars ((quoteSheetName name).toList ++ '!' :: cell.label.toList) =
      (quoteSheetName name).toList ++ '!' :: cell.label.toList := by
  refine trimChars_eq_self (fun c hc => ?_) fun c hc => ?_
  · rw [List.head?_append, List.head?_cons, Option.mem_def, Option.or_eq_some_iff] at hc
    rcases hc with hc | ⟨-, hc⟩
    · exact isBlank_head_quoteSheetName name c hc
    · obtain rfl : '!' = c := by simpa using hc
      decide
  · rw [CellAddress.label, toList_positionLabel, ← List.cons_append, ← List.append_assoc,
      List.getLast?_append_of_ne_nil _ (decimalDigits_ne_nil _)] at hc
    have hdigit := isDigit_of_mem_decimalDigits (List.mem_of_getLast? hc)
    exact isBlank_of_isNumberStart (by rw [isNumberStart, hdigit, Bool.true_or])

namespace Workbook

/-- **What a label with the name of a sheet before it leads to.** -/
theorem locate_append (w : Workbook) (name : String) (cell : CellAddress) :
    w.locate (quoteSheetName name ++ "!" ++ cell.label) =
      if name.toList.isEmpty then
        .error (.invalidAddress (quoteSheetName name ++ "!" ++ cell.label))
      else match w.store.sheetNamed? name with
        | some sheet => .ok ⟨sheet, cell.row, cell.col⟩
        | none => .error (.unknownSheet name) := by
  have hchars : (quoteSheetName name ++ "!" ++ cell.label).toList =
      (quoteSheetName name).toList ++ '!' :: cell.label.toList := by simp
  have hbang : ∀ c ∈ cell.label.toList, c ≠ '!' := fun c hc =>
    ((marks_of_isIdentifier (isIdentifier_label cell)).2 c hc).2
  have hread : readLabel cell.label.toList = some (cell.row, cell.col) :=
    parseLabel_positionLabel cell.row cell.col
  rw [locate, hchars, trimChars_reference, splitAtLastBang_append hbang]
  simp only [isLabelShaped_label, readSheetName_quoteSheetName, Bool.not_true, Bool.false_eq_true,
    if_false]
  cases name.toList.isEmpty with
  | true => rfl
  | false =>
    simp only [Bool.false_eq_true, if_false, String.ofList_toList]
    cases w.store.sheetNamed? name with
    | none => rfl
    | some sheet => simp only [locateOn, hread]

/-- **A label with its sheet before it leads back to its cell**, in every workbook that can come
about and on every sheet with a name that is not empty, whatever characters the name is made of. On
a sheet whose name is empty it leads nowhere: it starts with two quotes and is refused. -/
theorem locate_qualifiedLabel_iff (policy : TextPolicy) (operations : List Operation)
    (cell : CellAddress)
    (hsheet : ((empty policy).run operations).store.hasSheet cell.sheet = true) :
    let w := (empty policy).run operations
    let text := w.store.qualifiedLabel cell
    (w.locate text = .ok cell ↔ w.store.sheetName? cell.sheet ≠ some "") ∧
      (w.store.sheetName? cell.sheet = some "" → w.locate text = .error (.invalidAddress text)) := by
  intro w text
  have hnodup : w.store.sheets.Nodup := Reachable.nodup_sheets ⟨policy, operations, rfl⟩
  have hnamed := Store.sheetNamed?_sheetName hnodup hsheet
  obtain ⟨name, hname⟩ : ∃ name, w.store.sheetName? cell.sheet = some name :=
    ⟨_, List.getElem?_eq_getElem (of_decide_eq_true hsheet)⟩
  have htext : text = quoteSheetName name ++ "!" ++ cell.label := by
    simp only [text, Store.qualifiedLabel, hname]
  rw [hname, Option.getD_some] at hnamed
  have hlocate := w.locate_append name cell
  rw [hnamed, ← htext] at hlocate
  rw [hlocate, hname]
  by_cases hempty : name = ""
  · subst hempty
    simp
  · simp [hempty]

/-- A name with a quote, a mark and a line break at its end. -/
theorem locate_qualifiedLabel_quoted :
    let w := (empty .skip).run [.appendSheet "", .appendSheet "it's!\n"]
    let cell : CellAddress := ⟨1, 4, 27⟩
    (w.store.hasSheet cell.sheet = true ∧ w.store.sheetName? cell.sheet = some "it's!\n" ∧
        w.store.qualifiedLabel cell = "'it''s!\n'!AB5") ∧
      w.locate "'it''s!\n'!AB5" = .ok cell := by
  intro w cell
  have hsheet : w.store.hasSheet cell.sheet = true := by rfl
  have hname : w.store.sheetName? cell.sheet = some "it's!\n" := by rfl
  have hlabel : w.store.qualifiedLabel cell = "'it''s!\n'!AB5" := by cbv
  have hleads : w.locate (w.store.qualifiedLabel cell) = .ok cell ↔
      w.store.sheetName? cell.sheet ≠ some "" := (locate_qualifiedLabel_iff .skip _ cell hsheet).1
  rw [hlabel, hname] at hleads
  exact ⟨⟨hsheet, hname, hlabel⟩, hleads.2 (by simp)⟩

/-- The label of a cell on a sheet without a name is refused, though a formula can hold it. -/
theorem locate_nameless_sheet :
    let w := (empty .skip).run [.appendSheet ""]
    let cell : CellAddress := ⟨0, 0, 0⟩
    w.store.hasSheet cell.sheet = true ∧ w.store.qualifiedLabel cell = "''!A1" ∧
      w.locate "''!A1" = .error (.invalidAddress "''!A1") ∧ w.locate "''!A1" ≠ .ok cell ∧
      w.readFormula 0 "''!A1" = .ok ⟨"''!A1", .reference (.cell cell)⟩ := by
  intro w cell
  have hlocate : w.locate "''!A1" = .error (.invalidAddress "''!A1") := by cbv
  have hformula : w.readFormula 0 "''!A1" = .ok ⟨"''!A1", .reference (.cell cell)⟩ := by cbv
  exact ⟨rfl, by cbv, hlocate, by simp [hlocate], hformula⟩

end Workbook

end Spreadsheet
