/-
Which classes of characters are apart. No digit is a letter, no letter is
blank, and what starts a word starts no token of another kind.
-/
import Mathlib
import Spreadsheet.Formula.Lexer

namespace Spreadsheet

/-! ## Runs -/

section Runs

variable {α : Type} {p : α → Bool} {s rest : List α}

theorem takeWhile_append_of_head (h : ∀ c ∈ rest.head?, p c = false) :
    (s ++ rest).takeWhile p = s.takeWhile p := by
  have hrest : rest.takeWhile p = [] := by cases rest <;> simp_all
  rw [List.takeWhile_append, hrest, List.append_nil]
  split
  · rename_i hlength
    exact ((List.takeWhile_prefix p).eq_of_length hlength).symm
  · rfl

theorem dropWhile_append_of_head (h : ∀ c ∈ rest.head?, p c = false) :
    (s ++ rest).dropWhile p = s.dropWhile p ++ rest := by
  have hrest : rest.dropWhile p = rest := by cases rest <;> simp_all
  rw [List.dropWhile_append, hrest]
  split <;> simp_all

end Runs

/-! ## Letters and digits -/

/-- What holds of the characters up to a bound, one by one, holds of each of them. -/
theorem of_toNat_lt {P : Char → Prop} {bound : Nat} (h : ∀ n < bound, P (Char.ofNat n)) {c : Char}
    (hc : c.toNat < bound) : P c := by
  have hchar := h c.toNat hc
  rwa [Char.ofNat_toNat] at hchar

theorem isAlpha_iff {c : Char} : c.isAlpha = true ↔
    65 ≤ c.toNat ∧ c.toNat ≤ 90 ∨ 97 ≤ c.toNat ∧ c.toNat ≤ 122 := by
  simp [Char.isAlpha, Char.isUpper, Char.isLower, UInt32.le_iff_toNat_le, ← Char.toNat_val]

theorem isDigit_iff {c : Char} : c.isDigit = true ↔ 48 ≤ c.toNat ∧ c.toNat ≤ 57 :=
  Char.isDigit_iff_toNat

theorem isAlpha_of_isDigit {c : Char} (h : c.isDigit = true) : c.isAlpha = false := by
  rw [isDigit_iff] at h
  rw [← Bool.not_eq_true, isAlpha_iff]
  omega

theorem isAlphabetic_of_isDigit {c : Char} (h : c.isDigit = true) : isAlphabetic c = false := by
  have halpha := isAlpha_of_isDigit h
  rw [isDigit_iff] at h
  rw [isAlphabetic, if_pos (by omega), halpha]

/-! ## Blanks -/

/-- Ranges without a code point in common. -/
def apart (ranges others : List (Nat × Nat)) : Bool :=
  ranges.all fun r => others.all fun q => decide (r.2 < q.1) || decide (q.2 < r.1)

theorem inRanges_iff {ranges : List (Nat × Nat)} {code : Nat} :
    inRanges ranges code = true ↔ ∃ r ∈ ranges, r.1 ≤ code ∧ code ≤ r.2 := by
  simp [inRanges]

theorem inRanges_of_apart {ranges others : List (Nat × Nat)} (h : apart ranges others = true)
    {code : Nat} (hcode : inRanges ranges code = true) : inRanges others code = false := by
  obtain ⟨r, hr, hlow, hhigh⟩ := inRanges_iff.1 hcode
  rw [← Bool.not_eq_true, inRanges_iff]
  rintro ⟨q, hq, hlow', hhigh'⟩
  simp only [apart, List.all_eq_true, Bool.or_eq_true, decide_eq_true_eq] at h
  have := h r hr q hq
  omega

theorem blank_apart_alphabetic : apart blankRanges alphabeticRanges = true := by decide +kernel

theorem blank_apart_numeric : apart blankRanges numericRanges = true := by decide +kernel

theorem blank_apart_ascii : apart blankRanges [(33, 126)] = true := by decide

theorem isBlank_of_visible {c : Char} (hlow : 33 ≤ c.toNat) (hhigh : c.toNat ≤ 126) :
    isBlank c = false := by
  by_contra h
  have hout := inRanges_of_apart blank_apart_ascii (Bool.not_eq_false _ ▸ h)
  rw [← Bool.not_eq_true, inRanges_iff] at hout
  exact hout ⟨(33, 126), by simp, hlow, hhigh⟩

/-- A character of a class that is visible in ASCII and apart from the blanks beyond is not blank. -/
theorem isBlank_of_class {p : Char → Bool} {ranges : List (Nat × Nat)} {c : Char}
    (hvisible : p c = true → 33 ≤ c.toNat ∧ c.toNat ≤ 126)
    (hapart : apart blankRanges ranges = true)
    (h : (if c.toNat < 128 then p c else inRanges ranges c.toNat) = true) : isBlank c = false := by
  split at h
  · exact isBlank_of_visible (hvisible h).1 (hvisible h).2
  · by_contra hblank
    have hout := inRanges_of_apart hapart (Bool.not_eq_false _ ▸ hblank)
    rw [hout] at h
    cases h

theorem isBlank_of_isAlphabetic {c : Char} (h : isAlphabetic c = true) : isBlank c = false := by
  refine isBlank_of_class (p := Char.isAlpha) (fun halpha => ?_) blank_apart_alphabetic h
  rw [isAlpha_iff] at halpha
  omega

theorem isBlank_of_isNumeric {c : Char} (h : isNumeric c = true) : isBlank c = false := by
  refine isBlank_of_class (p := Char.isDigit) (fun hdigit => ?_) blank_apart_numeric h
  rw [isDigit_iff] at hdigit
  omega

/-! ## Words -/

theorem isBlank_of_isIdentifierStart {c : Char} (h : isIdentifierStart c = true) :
    isBlank c = false := by
  simp only [isIdentifierStart, Bool.or_eq_true, beq_iff_eq] at h
  rcases h with (h | rfl) | rfl
  · exact isBlank_of_isAlphabetic h
  · decide
  · decide

theorem isBlank_of_isIdentifierPart {c : Char} (h : isIdentifierPart c = true) :
    isBlank c = false := by
  simp only [isIdentifierPart, isAlphanumeric, Bool.or_eq_true, beq_iff_eq] at h
  rcases h with ((h | h) | rfl) | rfl
  · exact isBlank_of_isAlphabetic h
  · exact isBlank_of_isNumeric h
  · decide
  · decide

theorem isBlank_of_isNumberStart {c : Char} (h : isNumberStart c = true) : isBlank c = false := by
  simp only [isNumberStart, Bool.or_eq_true, beq_iff_eq] at h
  rcases h with h | rfl
  · rw [isDigit_iff] at h
    exact isBlank_of_visible (by omega) (by omega)
  · decide

theorem isNumberStart_of_isIdentifierStart {c : Char} (h : isIdentifierStart c = true) :
    isNumberStart c = false := by
  by_contra hnumber
  rw [Bool.not_eq_false, isNumberStart, Bool.or_eq_true, beq_iff_eq] at hnumber
  rcases hnumber with hdigit | rfl
  · have halphabetic := isAlphabetic_of_isDigit hdigit
    simp only [isIdentifierStart, halphabetic, Bool.false_or, Bool.or_eq_true, beq_iff_eq] at h
    rcases h with rfl | rfl <;> cases hdigit
  · cases h

/-- What starts an identifier or a number starts no token of another kind. -/
theorem readToken_of_word {c : Char} (h : isIdentifierStart c = true ∨ isNumberStart c = true)
    (rest : List Char) : readToken c rest =
      if isNumberStart c then readNumberToken (c :: rest)
      else .ok (.identifier (String.ofList (c :: rest.takeWhile isIdentifierPart)),
        rest.dropWhile isIdentifierPart) := by
  have hsingle : singleToken? c = none := by
    unfold singleToken?
    split <;> first | rfl | exact absurd h (by decide)
  have hquote : ¬ (c = '"' || c = '\'') = true := by
    intro hc
    simp only [Bool.or_eq_true, decide_eq_true_eq] at hc
    rcases hc with rfl | rfl <;> exact absurd h (by decide)
  have hless : c ≠ '<' := by
    rintro rfl
    exact absurd h (by decide)
  have hgreater : c ≠ '>' := by
    rintro rfl
    exact absurd h (by decide)
  rw [readToken, if_neg hquote, hsingle]
  simp only [if_neg hless, if_neg hgreater]
  split
  · rfl
  · rename_i hnumber
    rw [if_pos (h.resolve_right hnumber)]

end Spreadsheet
