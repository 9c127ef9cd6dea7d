/-
What lines hold. Trimming takes the blanks at both ends of a text and nothing
else (`bears_iff`), and a text is split at each of its separators
(`splitAtChar_eq_splitOn`). The carriage return that goes with a line feed is
a blank at the end of its line, so whatever trims what it reads reads the same
between line feeds (`trimChars_append_blank`).
-/
import Mathlib
import Spreadsheet.Text.Line

namespace Spreadsheet

/-! ## Blanks -/

/-- A text that holds nothing but blanks. -/
def Blank (s : List Char) : Prop :=
  ∀ c ∈ s, isBlank c = true

/-- A text bears a word if it is the word with blanks at most before and after it. The word is not
empty, and no blank stands at either end of it. -/
structure Bears (s word : List Char) : Prop where
  framed : ∃ before after, s = before ++ word ++ after ∧ Blank before ∧ Blank after
  first : ∃ c, word.head? = some c ∧ isBlank c = false
  last : ∃ c, word.getLast? = some c ∧ isBlank c = false

theorem trimChars_eq_nil {s : List Char} : trimChars s = [] ↔ Blank s := by
  have hblank : s.dropWhile isBlank = [] ↔ Blank s := List.dropWhile_eq_nil_iff
  change (s.dropWhile isBlank).rdropWhile isBlank = [] ↔ Blank s
  rw [List.rdropWhile_eq_nil_iff, ← hblank]
  constructor
  · intro h
    have hfirst := List.head?_dropWhile_not isBlank s
    cases hs : s.dropWhile isBlank with
    | nil => rfl
    | cons c rest =>
      rw [hs] at h hfirst
      exact absurd (h c (by simp)) (by simpa using hfirst)
  · intro h
    simp [h]

theorem trimChars_eq_self {s : List Char} (hfirst : ∀ c ∈ s.head?, isBlank c = false)
    (hlast : ∀ c ∈ s.getLast?, isBlank c = false) : trimChars s = s := by
  have dropWhile_eq_self : ∀ {l : List Char}, (∀ c ∈ l.head?, isBlank c = false) →
      l.dropWhile isBlank = l := fun {l} h => by
    cases l with
    | nil => rfl
    | cons c l => rw [List.dropWhile_cons_of_neg (by simp [h c rfl])]
  rw [trimChars, dropWhile_eq_self hfirst, dropWhile_eq_self (by simpa using hlast),
    List.reverse_reverse]

theorem trimChars_blank_append {blank : List Char} (h : Blank blank) (s : List Char) :
    trimChars (blank ++ s) = trimChars s := by
  rw [trimChars, List.dropWhile_append_of_pos h, trimChars]

theorem trimChars_append_blank {blank : List Char} (h : Blank blank) (s : List Char) :
    trimChars (s ++ blank) = trimChars s := by
  have hreverse : Blank blank.reverse := fun c hc => h c (List.mem_reverse.1 hc)
  rw [trimChars, trimChars, List.dropWhile_append]
  split
  · rename_i hs
    rw [List.isEmpty_iff.1 hs, List.dropWhile_eq_nil_iff.2 h]
  · rw [List.reverse_append, List.dropWhile_append_of_pos hreverse]

/-- **What is left of a text when it is trimmed is the word that it bears.** -/
theorem bears_iff {s word : List Char} : Bears s word ↔ trimChars s = word ∧ word ≠ [] := by
  constructor
  · rintro ⟨⟨before, after, rfl, hbefore, hafter⟩, ⟨c, hc, hfirst⟩, ⟨d, hd, hlast⟩⟩
    refine ⟨?_, fun hnil => by simp [hnil] at hc⟩
    rw [trimChars_append_blank hafter, trimChars_blank_append hbefore]
    exact trimChars_eq_self (by simp [hc, hfirst]) (by simp [hd, hlast])
  · rintro ⟨rfl, hne⟩
    have hword : trimChars s = (s.dropWhile isBlank).rdropWhile isBlank := rfl
    have hrest : s.dropWhile isBlank =
        trimChars s ++ (s.dropWhile isBlank).rtakeWhile isBlank :=
      List.rdropWhile_append_rtakeWhile.symm
    refine ⟨⟨s.takeWhile isBlank, (s.dropWhile isBlank).rtakeWhile isBlank, ?_,
      fun c hc => List.mem_takeWhile_imp hc, fun c hc => List.mem_rtakeWhile_imp hc⟩,
      ⟨(trimChars s).head hne, List.head?_eq_some_head hne, ?_⟩,
      ⟨(trimChars s).getLast hne, List.getLast?_eq_some_getLast hne, ?_⟩⟩
    · rw [List.append_assoc, ← hrest, List.takeWhile_append_dropWhile]
    · have hfirst := List.head?_dropWhile_not isBlank s
      rw [hrest, List.head?_append_of_ne_nil _ hne, List.head?_eq_some_head hne] at hfirst
      exact hfirst
    · simpa [hword] using List.rdropWhile_last_not isBlank (s.dropWhile isBlank) hne

theorem exists_bears {s : List Char} : (∃ word, Bears s word) ↔ ¬ Blank s := by
  simp only [bears_iff, ← trimChars_eq_nil]
  exact ⟨fun ⟨_, h, hne⟩ => h ▸ hne, fun h => ⟨_, rfl, h⟩⟩

/-! ## Pieces -/

theorem splitAtChar_eq_splitOn (sep : Char) (s : List Char) :
    splitAtChar sep s = s.splitOn sep := by
  induction s with
  | nil => rfl
  | cons c rest ih =>
    rw [splitAtChar, List.splitOn_cons_eq_if_modifyHead, ih]
    by_cases hc : c = sep
    · simp [hc]
    · obtain ⟨piece, pieces, hpieces⟩ := List.exists_cons_of_ne_nil (List.splitOn_ne_nil sep rest)
      simp [hc, hpieces]

theorem splitAtChar_pair {sep : Char} {before after : List Char} (hbefore : sep ∉ before)
    (hafter : sep ∉ after) : splitAtChar sep (before ++ sep :: after) = [before, after] := by
  rw [splitAtChar_eq_splitOn, List.splitOn_append_cons_self_of_not_mem hbefore,
    List.splitOn_eq_singleton hafter]

/-- A separator is in a text not at all, or once, or more often than that. -/
theorem separator_cases (sep : Char) (s : List Char) : sep ∉ s ∨
    (∃ before after, s = before ++ sep :: after ∧ sep ∉ before ∧ sep ∉ after) ∨
      ∃ before middle after, s = before ++ sep :: (middle ++ sep :: after) ∧ sep ∉ before ∧
        sep ∉ middle := by
  by_cases hs : sep ∈ s
  · obtain ⟨before, rest, rfl, hbefore⟩ := List.eq_append_cons_of_mem hs
    by_cases hrest : sep ∈ rest
    · obtain ⟨middle, after, rfl, hmiddle⟩ := List.eq_append_cons_of_mem hrest
      exact .inr (.inr ⟨before, middle, after, rfl, hbefore, hmiddle⟩)
    · exact .inr (.inl ⟨before, rest, rfl, hbefore, hrest⟩)
  · exact .inl hs

/-- A line without the carriage return of its line feed is the line, or the line but for a carriage
return at its end. -/
theorem dropReturn_cases (line : List Char) :
    dropReturn line = line ∨ line = dropReturn line ++ ['\r'] := by
  unfold dropReturn
  split
  · rename_i h
    exact .inr (List.dropLast_append_getLast? _ h).symm
  · exact .inl rfl

theorem blank_return : Blank ['\r'] :=
  List.forall_mem_singleton.2 (by decide)

end Spreadsheet
