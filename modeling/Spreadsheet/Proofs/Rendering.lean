/-
Written tokens are read back. A number can be written as any text that it can
be read from (`isLiteral_iff_readNumber`), and no token goes on with a blank
(`Token.isBlank_of_mayContinue`). So tokens with blanks between them are
spelled one by one (`spelled_writtenText`), whatever text each of them is
written as, and each is found behind the text of those before it.
-/
import Spreadsheet.Proofs.Printing

namespace Spreadsheet

/-! ## Literals -/

theorem all_isDigit_of_readDigits {s : List Char} {n : Nat} (h : Decimal.readDigits s = some n) :
    s.all Char.isDigit = true := by
  unfold Decimal.readDigits at h
  split at h
  · cases h
  · rename_i hdigits
    simp only [Bool.or_eq_true, Bool.not_eq_true', not_or, Bool.not_eq_false] at hdigits
    exact hdigits.2

theorem spanSign_of_readSignedDigits {s : List Char} {e : Int}
    (h : Decimal.readSignedDigits s = some e) :
    (spanSign s).1 ++ (spanSign s).2 = s ∧ (spanSign s).2.all Char.isDigit = true := by
  have hdigits : ∃ n, Decimal.readDigits (spanSign s).2 = some n := by
    unfold Decimal.readSignedDigits at h
    split at h
    · rename_i rest
      cases hn : Decimal.readDigits rest with
      | none => simp [hn] at h
      | some n => exact ⟨n, hn⟩
    · rename_i rest
      cases hn : Decimal.readDigits rest with
      | none => simp [hn] at h
      | some n => exact ⟨n, hn⟩
    · rename_i hminus hplus
      obtain ⟨n, hn, -⟩ := Option.map_eq_some_iff.1 h
      rw [spanSign.eq_3 s hplus hminus]
      exact ⟨n, hn⟩
  obtain ⟨n, hn⟩ := hdigits
  refine ⟨?_, all_isDigit_of_readDigits hn⟩
  unfold spanSign
  split <;> rfl

/-- An exponent that can be read is one to its end. -/
theorem spanExponent_of_readExponent {s : List Char} {e : Int}
    (h : Decimal.readExponent s = some e) : spanExponent s = (s, []) := by
  cases s with
  | nil => rfl
  | cons c s =>
    rw [Decimal.readExponent] at h
    split at h
    · rename_i hmark
      obtain ⟨hsign, hdigits⟩ := spanSign_of_readSignedDigits h
      rw [List.all_eq_true] at hdigits
      simp only [spanExponent, if_pos hmark, List.takeWhile_eq_self_iff.2 hdigits,
        List.dropWhile_eq_nil_iff.2 hdigits, List.cons_append, hsign]
    · cases h

theorem isNumberStart_of_readNumber {s : List Char} {x : Float} (h : readNumber s = some x) :
    s.head?.any isNumberStart = true := by
  cases s with
  | nil => cases h
  | cons c s =>
    change isNumberStart c = true
    by_contra hc
    simp only [isNumberStart, Bool.or_eq_true, beq_iff_eq, not_or, Bool.not_eq_true] at hc
    obtain ⟨hdigit, hpoint⟩ := hc
    simp [readNumber, Decimal.read, Decimal.splitFraction, hdigit, hpoint] at h

theorem spanFraction_fst_append_snd (s : List Char) :
    (spanFraction s).1 ++ (spanFraction s).2 = s := by
  unfold spanFraction
  split
  · rw [List.cons_append, List.takeWhile_append_dropWhile]
  · rfl

/-- **Every text that a number can be read from is a literal of it.** -/
theorem isLiteral_iff_readNumber {s : List Char} {x : Float} :
    IsLiteral s x ↔ readNumber s = some x := by
  refine ⟨fun h => h.2.2, fun h => ⟨isNumberStart_of_readNumber h, ?_, h⟩⟩
  obtain ⟨e, he⟩ := readExponent_of_readNumber h
  simp only [spanNumber, spanExponent_of_readExponent he]
  rw [List.append_assoc, spanFraction_fst_append_snd, List.takeWhile_append_dropWhile]

/-! ## Blanks -/

theorem Token.isBlank_of_mayContinue {t : Token} {c : Char} (h : t.mayContinue c = true) :
    isBlank c = false := by
  cases t with
  | number x =>
    simp only [mayContinue, Bool.or_eq_true, beq_iff_eq] at h
    rcases h with ((hdigit | rfl) | rfl) | rfl
    · exact isBlank_of_isNumeric (isNumeric_of_isDigit hdigit)
    · decide
    · decide
    · decide
  | text content | quotedName content =>
    obtain rfl := beq_iff_eq.1 h
    decide
  | identifier name => exact isBlank_of_isIdentifierPart h
  | operator op =>
    cases op with
    | lt =>
      simp only [mayContinue, Bool.or_eq_true, beq_iff_eq] at h
      rcases h with rfl | rfl <;> decide
    | gt =>
      obtain rfl := beq_iff_eq.1 h
      decide
    | _ => cases h
  | openParen | closeParen | comma | colon | bang => cases h

/-- Blanks before a text only move it. -/
theorem Spelled.blanks {position : Nat} {tokens : List PlacedToken} {blanks s : List Char}
    (hblanks : blanks.all isBlank = true)
    (h : Spelled (position + blanks.length) tokens s) : Spelled position tokens (blanks ++ s) := by
  induction blanks generalizing position with
  | nil => exact h
  | cons c blanks ih =>
    rw [List.all_cons, Bool.and_eq_true] at hblanks
    refine .blank hblanks.1 (ih hblanks.2 ?_)
    rwa [List.length_cons, Nat.add_comm blanks.length, ← Nat.add_assoc] at h

/-! ## Tokens with blanks between them -/

/-- A token, a text it is written as, and the blanks after it. -/
structure WrittenToken where
  token : Token
  text : List Char
  blanks : List Char
  written : token.WrittenAs text
  all_blank : blanks.all isBlank = true

/-- The text of tokens with their blanks, one after the other. -/
def writtenText (tokens : List WrittenToken) : List Char :=
  tokens.flatMap fun t => t.text ++ t.blanks

theorem writtenText_cons (t : WrittenToken) (rest : List WrittenToken) :
    writtenText (t :: rest) = t.text ++ (t.blanks ++ writtenText rest) := by
  rw [writtenText, List.flatMap_cons, List.append_assoc, ← writtenText]

theorem WrittenToken.endsBefore {t : WrittenToken} {rest : List WrittenToken}
    (h : rest = [] ∨ t.blanks ≠ []) : t.token.EndsBefore (t.blanks ++ writtenText rest) := by
  intro c hc
  cases hblanks : t.blanks with
  | nil =>
    obtain rfl := h.resolve_right (not_not.2 hblanks)
    rw [hblanks] at hc
    cases hc
  | cons d blanks =>
    have hblank : isBlank d = true :=
      List.all_eq_true.1 t.all_blank d (hblanks ▸ List.mem_cons_self)
    rw [hblanks] at hc
    obtain rfl : d = c := by simpa using hc
    by_contra hd
    rw [Token.isBlank_of_mayContinue (Bool.not_eq_false _ ▸ hd)] at hblank
    cases hblank

/-- **Tokens are spelled by their text** if blanks stand between them, each of them behind the text
of those before it. -/
theorem spelled_writtenText {tokens : List WrittenToken}
    (hapart : ∀ t ∈ tokens.dropLast, t.blanks ≠ []) (position : Nat) :
    Spelled position
      (tokens.mapIdx fun i t => ⟨t.token, position + (writtenText (tokens.take i)).length⟩)
      (writtenText tokens) := by
  induction tokens generalizing position with
  | nil => exact .done position
  | cons t rest ih =>
    have hends : t.token.EndsBefore (t.blanks ++ writtenText rest) := by
      refine WrittenToken.endsBefore ?_
      cases rest with
      | nil => exact .inl rfl
      | cons u rest => exact .inr (hapart t List.mem_cons_self)
    have hapart' : ∀ u ∈ rest.dropLast, u.blanks ≠ [] := fun u hu => hapart u (by
      cases rest with
      | nil => cases hu
      | cons v rest => exact List.mem_cons_of_mem t hu)
    have hrest := ih hapart' (position + t.text.length + t.blanks.length)
    have hshift : ∀ i, position + (writtenText ((t :: rest).take (i + 1))).length =
        position + t.text.length + t.blanks.length + (writtenText (rest.take i)).length := by
      intro i
      rw [List.take_succ_cons, writtenText_cons, List.length_append, List.length_append]
      omega
    rw [writtenText_cons, List.mapIdx_cons]
    simp only [hshift]
    exact .token t.written hends (.blanks t.all_blank hrest)

/--
**Tokens are read back as they were written, each where it was written.** Take tokens with a text
for each: a literal for a number, quotes doubled in a text or a quoted name, anything from a letter,
an underscore or a dollar sign on for an identifier. Their texts after an equals sign, with blanks
between them and perhaps before and after them, are read to exactly these tokens, and the place of
each is the number of characters before it.
-/
theorem tokenize_written (lead : List Char) (tokens : List WrittenToken)
    (hlead : lead.all isBlank = true) (hapart : ∀ t ∈ tokens.dropLast, t.blanks ≠ []) :
    let textBefore := fun i => "=" ++ String.ofList (lead ++ writtenText (tokens.take i))
    tokenize (textBefore tokens.length) =
      .ok (tokens.mapIdx fun i t => ⟨t.token, (textBefore i).length⟩) := by
  intro textBefore
  have hlength : ∀ i, (textBefore i).length =
      1 + lead.length + (writtenText (tokens.take i)).length := fun i => by
    simp only [textBefore, String.length_append, String.length_ofList, List.length_append]
    rw [← Nat.add_assoc]
    rfl
  have hspelled := (spelled_writtenText hapart (1 + lead.length)).blanks hlead
  simp only [textBefore, List.take_length]
  simp only [textBefore] at hlength
  rw [tokenize_equals, String.toList_ofList, hspelled.tokensFrom]
  simp only [hlength]

/-- A literal with an exponent, two operators that would be one without a blank between them, quotes
in a text and in a name, a letter beyond ASCII, and no blank after the first equals sign. -/
theorem tokenize_written_mixed :
    let x := Decimal.toFloat false ⟨15, 1⟩
    let source := "== 1.5E+2 <\t= \"a\"\"b\"\n'it''s' !  é$1"
    tokenize source = .ok [⟨.operator .eq, 1⟩, ⟨.number x, 3⟩, ⟨.operator .lt, 10⟩,
      ⟨.operator .eq, 12⟩, ⟨.text "a\"b", 14⟩, ⟨.quotedName "it's", 21⟩, ⟨.bang, 29⟩,
      ⟨.identifier "é$1", 32⟩] := by
  intro x source
  let tokens : List WrittenToken := [
    ⟨_, _, [' '], .operator .eq, by decide⟩,
    ⟨.number x, ['1', '.', '5', 'E', '+', '2'], [' '], .number (isLiteral_iff_readNumber.2 rfl),
      by decide⟩,
    ⟨_, _, ['\t'], .operator .lt, by decide⟩,
    ⟨_, _, [' '], .operator .eq, by decide⟩,
    ⟨_, _, ['\n'], .text "a\"b", by decide⟩,
    ⟨_, _, [' '], .quotedName "it's", by decide⟩,
    ⟨_, _, [' ', ' '], .bang, by decide⟩,
    ⟨_, ['é', '$', '1'], [], .identifier rfl rfl, by decide⟩]
  have h := tokenize_written [] tokens rfl (by simp [tokens])
  have hsource : "=" ++ String.ofList ([] ++ writtenText (tokens.take tokens.length)) = source := by
    cbv
  dsimp only at h
  rw [hsource] at h
  rw [h]
  cbv

end Spreadsheet
