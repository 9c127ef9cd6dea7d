/-
Tokens are read back as they were written. A token that is written before
something that does not continue it is read whole and alone
(`Token.WrittenAs.readToken`), so a text in which each token ends before what
follows it is read to these tokens, with the places they stand at
(`Spelled.tokensFrom`).
-/
import Spreadsheet.Formula.Written
import Spreadsheet.Proofs.Characters

namespace Spreadsheet

/-! ## Numbers -/

section Numbers

variable {s rest : List Char}

theorem spanFraction_append (h : ∀ c ∈ rest.head?, c.isDigit = false ∧ c ≠ '.') :
    spanFraction (s ++ rest) = ((spanFraction s).1, (spanFraction s).2 ++ rest) := by
  have hdigit : ∀ c ∈ rest.head?, c.isDigit = false := fun c hc => (h c hc).1
  cases s with
  | nil =>
    cases rest with
    | nil => rfl
    | cons c rest =>
      have hpoint : c ≠ '.' := (h c rfl).2
      simp [spanFraction, hpoint]
  | cons c s =>
    by_cases hpoint : c = '.'
    · subst hpoint
      simp only [spanFraction, List.cons_append]
      rw [takeWhile_append_of_head hdigit, dropWhile_append_of_head hdigit]
    · simp [spanFraction, hpoint]

theorem spanSign_append (hs : s ≠ []) :
    spanSign (s ++ rest) = ((spanSign s).1, (spanSign s).2 ++ rest) := by
  obtain ⟨c, s, rfl⟩ := List.exists_cons_of_ne_nil hs
  by_cases hplus : c = '+'
  · subst hplus
    rfl
  · by_cases hminus : c = '-'
    · subst hminus
      rfl
    · simp [spanSign, hplus, hminus]

theorem ne_nil_of_readExponent {c : Char} {e : Int} (hmark : (c = 'e' || c = 'E') = true)
    (h : Decimal.readExponent (c :: s) = some e) : s ≠ [] := by
  rintro rfl
  rw [Decimal.readExponent, if_pos hmark] at h
  cases h

theorem spanExponent_append (h : ∀ c ∈ rest.head?, c.isDigit = false ∧ c ≠ 'e' ∧ c ≠ 'E')
    {e : Int} (hs : Decimal.readExponent s = some e) :
    spanExponent (s ++ rest) = ((spanExponent s).1, (spanExponent s).2 ++ rest) := by
  have hdigit : ∀ c ∈ rest.head?, c.isDigit = false := fun c hc => (h c hc).1
  cases s with
  | nil =>
    cases rest with
    | nil => rfl
    | cons c rest =>
      have hmark := (h c rfl).2
      simp [spanExponent, hmark]
  | cons c s =>
    by_cases hmark : (c = 'e' || c = 'E') = true
    · simp only [spanExponent, List.cons_append, if_pos hmark]
      rw [spanSign_append (ne_nil_of_readExponent hmark hs)]
      dsimp only
      rw [takeWhile_append_of_head hdigit, dropWhile_append_of_head hdigit]
    · simp [spanExponent, hmark]

theorem spanFraction_snd (s : List Char) : (spanFraction s).2 = (Decimal.splitFraction s).2 := by
  unfold spanFraction
  split
  · rfl
  · rename_i hpoint
    rw [Decimal.splitFraction.eq_2 s hpoint]

theorem readExponent_of_readNumber {x : Float} (h : readNumber s = some x) :
    ∃ e, Decimal.readExponent (spanFraction (s.dropWhile Char.isDigit)).2 = some e := by
  obtain ⟨d, hd, -⟩ := Option.map_eq_some_iff.1 h
  simp only [Decimal.read] at hd
  split at hd
  · cases hd
  · obtain ⟨e, he, -⟩ := Option.map_eq_some_iff.1 hd
    exact ⟨e, (spanFraction_snd _).symm ▸ he⟩

theorem spanNumber_append {x : Float} (hs : readNumber s = some x)
    (h : ∀ c ∈ rest.head?, c.isDigit = false ∧ c ≠ '.' ∧ c ≠ 'e' ∧ c ≠ 'E') :
    spanNumber (s ++ rest) = ((spanNumber s).1, (spanNumber s).2 ++ rest) := by
  have hdigit : ∀ c ∈ rest.head?, c.isDigit = false := fun c hc => (h c hc).1
  obtain ⟨e, he⟩ := readExponent_of_readNumber hs
  simp only [spanNumber]
  rw [takeWhile_append_of_head hdigit, dropWhile_append_of_head hdigit,
    spanFraction_append fun c hc => ⟨(h c hc).1, (h c hc).2.1⟩]
  dsimp only
  rw [spanExponent_append (fun c hc => ⟨(h c hc).1, (h c hc).2.2⟩) he]

end Numbers

/-! ## Quotes -/

/-- A quoted content ends at its closing quote if no other quote follows. -/
theorem readQuoted_doubleQuotes {quote : Char} (content : List Char) {rest : List Char}
    (h : ∀ c ∈ rest.head?, c ≠ quote) :
    readQuoted quote (doubleQuotes quote content ++ quote :: rest) = some (content, rest) := by
  induction content with
  | nil =>
    cases rest with
    | nil => simp [doubleQuotes, readQuoted]
    | cons c rest =>
      have hc : c ≠ quote := h c rfl
      simp [doubleQuotes, readQuoted, hc]
  | cons c content ih =>
    by_cases hc : c = quote
    · subst hc
      simp [doubleQuotes, readQuoted, ih]
    · obtain ⟨d, more, hmore⟩ := List.exists_cons_of_ne_nil
        (List.append_ne_nil_of_right_ne_nil (doubleQuotes quote content) (List.cons_ne_nil quote rest))
      rw [doubleQuotes, if_neg hc, List.cons_append]
      rw [hmore] at ih ⊢
      rw [readQuoted, if_neg hc, ih]
      rfl

/-! ## Single tokens -/

/-- What is read from a character on: something in quotes, one character, a comparison, a number, an
identifier, or nothing. -/
theorem readToken_cases (c : Char) (rest : List Char) :
    readToken c rest = readQuotedToken c rest ∨
      (∃ t, singleToken? c = some t ∧ readToken c rest = .ok (t, rest)) ∨
      (∃ op after, readToken c rest = .ok (.operator op, after)) ∨
      readToken c rest = readNumberToken (c :: rest) ∨
      (isIdentifierStart c = true ∧ readToken c rest =
        .ok (.identifier (String.ofList (c :: rest.takeWhile isIdentifierPart)),
          rest.dropWhile isIdentifierPart)) ∨
      readToken c rest = .error (.invalidCharacter c) := by
  unfold readToken
  split
  · exact .inl rfl
  split
  · rename_i t hsingle
    exact .inr (.inl ⟨t, hsingle, rfl⟩)
  split
  · exact .inr (.inr (.inl ⟨_, _, rfl⟩))
  split
  · exact .inr (.inr (.inl ⟨_, _, rfl⟩))
  split
  · exact .inr (.inr (.inr (.inl rfl)))
  split
  · rename_i hstart
    exact .inr (.inr (.inr (.inr (.inl ⟨hstart, rfl⟩))))
  · exact .inr (.inr (.inr (.inr (.inr rfl))))

/-- Whether a character right after a token would be read as more of it. -/
def Token.mayContinue : Token → Char → Bool
  | .number _, c => c.isDigit || c == '.' || c == 'e' || c == 'E'
  | .text _, c => c == '"'
  | .quotedName _, c => c == '\''
  | .identifier _, c => isIdentifierPart c
  | .operator .lt, c => c == '=' || c == '>'
  | .operator .gt, c => c == '='
  | _, _ => false

/-- Whether a token ends before a text. -/
def Token.EndsBefore (t : Token) (rest : List Char) : Prop :=
  ∀ c ∈ rest.head?, t.mayContinue c = false

theorem readLess_of_head {rest : List Char} (h : (Token.operator .lt).EndsBefore rest) :
    readLess rest = (.lt, rest) := by
  cases rest with
  | nil => rfl
  | cons c rest =>
    have hc := h c rfl
    simp only [Token.mayContinue, Bool.or_eq_false_iff, beq_eq_false_iff_ne, ne_eq] at hc
    simp [readLess, hc]

theorem readGreater_of_head {rest : List Char} (h : (Token.operator .gt).EndsBefore rest) :
    readGreater rest = (.gt, rest) := by
  cases rest with
  | nil => rfl
  | cons c rest =>
    have hc := h c rfl
    simp only [Token.mayContinue, beq_eq_false_iff_ne, ne_eq] at hc
    simp [readGreater, hc]

theorem readNumberToken_append {s rest : List Char} {x : Float} (hs : IsLiteral s x)
    (hrest : (Token.number x).EndsBefore rest) :
    readNumberToken (s ++ rest) = .ok (.number x, rest) := by
  have hspan : spanNumber (s ++ rest) = (s, rest) := by
    rw [spanNumber_append hs.2.2, hs.2.1, List.nil_append]
    intro c hc
    have hend := hrest c hc
    simpa [Token.mayContinue, and_assoc] using hend
  rw [readNumberToken, hspan, hs.2.2]

theorem readQuotedToken_enquoted {quote : Char} (content : String) {rest : List Char}
    (h : ∀ c ∈ rest.head?, c ≠ quote) :
    readQuotedToken quote (doubleQuotes quote content.toList ++ [quote] ++ rest) =
      .ok (if quote = '"' then .text content else .quotedName content, rest) := by
  rw [readQuotedToken, List.append_assoc, List.singleton_append, readQuoted_doubleQuotes _ h]
  simp only [String.ofList_toList]

/-- **A token is read whole and alone** before a text that does not continue it. -/
theorem Token.WrittenAs.readToken {t : Token} {c : Char} {s rest : List Char}
    (h : t.WrittenAs (c :: s)) (hrest : t.EndsBefore rest) :
    readToken c (s ++ rest) = .ok (t, rest) := by
  generalize hw : c :: s = written at h
  cases h with
  | @number x _ hs =>
    subst hw
    have hstart : isNumberStart c = true := by simpa using hs.1
    rw [readToken_of_word (.inr hstart), if_pos hstart, ← List.cons_append]
    exact readNumberToken_append hs hrest
  | text content =>
    cases hw
    exact readQuotedToken_enquoted content fun d hd => by simpa [mayContinue] using hrest d hd
  | quotedName name =>
    cases hw
    exact readQuotedToken_enquoted name fun d hd => by simpa [mayContinue] using hrest d hd
  | identifier hstart hparts =>
    cases hw
    have hend : ∀ d ∈ rest.head?, isIdentifierPart d = false := hrest
    rw [readToken_of_word (.inl hstart), if_neg (by simp [isNumberStart_of_isIdentifierStart hstart]),
      takeWhile_append_of_head hend, dropWhile_append_of_head hend,
      List.takeWhile_eq_self_iff.2 (List.all_eq_true.1 hparts),
      List.dropWhile_eq_nil_iff.2 (List.all_eq_true.1 hparts), List.nil_append]
  | operator op =>
    cases op with
    | lt =>
      cases hw
      change Except.ok (Token.operator (readLess rest).1, (readLess rest).2) = _
      rw [readLess_of_head hrest]
    | gt =>
      cases hw
      change Except.ok (Token.operator (readGreater rest).1, (readGreater rest).2) = _
      rw [readGreater_of_head hrest]
    | _ =>
      cases hw
      rfl
  | openParen | closeParen | comma | colon | bang =>
    cases hw
    rfl

theorem Token.WrittenAs.exists_cons {t : Token} {s : List Char} (h : t.WrittenAs s) :
    ∃ c u, s = c :: u ∧ isBlank c = false := by
  cases h with
  | number hs =>
    obtain ⟨c, hc, hstart⟩ := (Option.any_eq_true _ _).1 hs.1
    obtain ⟨u, rfl⟩ := List.head?_eq_some_iff.1 hc
    exact ⟨c, u, rfl, isBlank_of_isNumberStart hstart⟩
  | text | quotedName => exact ⟨_, _, rfl, by decide⟩
  | identifier hstart _ => exact ⟨_, _, rfl, isBlank_of_isIdentifierStart hstart⟩
  | operator op => cases op <;> exact ⟨_, _, rfl, by decide⟩
  | openParen | closeParen | comma | colon | bang => exact ⟨_, _, rfl, by decide⟩

/-! ## Texts -/

/-- A text that is written as tokens, the first character of it at a position, with blanks before,
between and after them. -/
inductive Spelled : Nat → List PlacedToken → List Char → Prop where
  | done (position : Nat) : Spelled position [] []
  | blank {position : Nat} {tokens : List PlacedToken} {c : Char} {s : List Char} :
    isBlank c = true → Spelled (position + 1) tokens s → Spelled position tokens (c :: s)
  | token {position : Nat} {t : Token} {tokens : List PlacedToken} {s rest : List Char} :
    t.WrittenAs s → t.EndsBefore rest → Spelled (position + s.length) tokens rest →
    Spelled position (⟨t, position⟩ :: tokens) (s ++ rest)

theorem tokensFrom_blank {c : Char} (h : isBlank c = true) (position : Nat) (s : List Char) :
    tokensFrom position (c :: s) = tokensFrom (position + 1) s := by
  rw [tokensFrom, if_pos h]

theorem tokensFrom_token {c : Char} {s rest : List Char} {t : Token} (hc : isBlank c = false)
    (h : readToken c s = .ok (t, rest)) (position : Nat) : tokensFrom position (c :: s) =
      (tokensFrom (position + 1 + (s.length - rest.length)) rest).map (⟨t, position⟩ :: ·) := by
  rw [tokensFrom, if_neg (by simp [hc])]
  split
  · rename_i hread
    rw [h] at hread
    cases hread
  · rename_i hread
    rw [h] at hread
    cases hread
    rfl

theorem tokensFrom_error {c : Char} {s : List Char} {fault : SyntaxFault} (hc : isBlank c = false)
    (h : readToken c s = .error fault) (position : Nat) :
    tokensFrom position (c :: s) = .error ⟨fault, position⟩ := by
  rw [tokensFrom, if_neg (by simp [hc])]
  split
  · rename_i hread
    rw [h] at hread
    cases hread
    rfl
  · rename_i hread
    rw [h] at hread
    cases hread

/-- **Tokens are read back as they were written**, each with the place it stands at. -/
theorem Spelled.tokensFrom {position : Nat} {tokens : List PlacedToken} {s : List Char}
    (h : Spelled position tokens s) : tokensFrom position s = .ok tokens := by
  induction h with
  | done position => rw [Spreadsheet.tokensFrom]
  | blank hc _ ih => rw [tokensFrom_blank hc, ih]
  | @token position t tokens s rest hwritten hends _ ih =>
    obtain ⟨c, u, rfl, hc⟩ := hwritten.exists_cons
    have hlength : position + 1 + ((u ++ rest).length - rest.length) = position + (c :: u).length := by
      simp only [List.length_append, List.length_cons]
      omega
    rw [List.cons_append, tokensFrom_token hc (hwritten.readToken hends), hlength, ih]
    rfl

end Spreadsheet
