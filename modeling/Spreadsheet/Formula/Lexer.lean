/-
From text to tokens. Blanks separate tokens and are skipped; every other token is the longest run
of characters of its kind, recognised by its first character. A quoted text or name ends at the
first quote that is not doubled. Every token takes at least one character, so reading ends, and
the first thing that is no token is the error.
-/
import Spreadsheet.Formula.Token
import Spreadsheet.Name

namespace Spreadsheet

/-- Whether a character may start an identifier. -/
def isIdentifierStart (c : Char) : Bool :=
  isAlphabetic c || c == '_' || c == '$'

/-- Whether a character may continue an identifier. -/
def isIdentifierPart (c : Char) : Bool :=
  isAlphanumeric c || c == '_' || c == '$'

/-- Whether a character starts a number. -/
def isNumberStart (c : Char) : Bool :=
  c.isDigit || c == '.'

/-- The content up to the closing quote, doubled quotes read as one, and what follows it; none if
the quote is never closed. -/
def readQuoted (quote : Char) : List Char → Option (List Char × List Char)
  | [] => none
  | [c] => if c = quote then some ([], []) else none
  | c :: d :: rest =>
    if c = quote then
      if d = quote then (readQuoted quote rest).map fun r => (quote :: r.1, r.2)
      else some ([], d :: rest)
    else (readQuoted quote (d :: rest)).map fun r => (c :: r.1, r.2)

/-- The point and digits that may follow the whole part of a number, and what follows them. -/
def spanFraction : List Char → List Char × List Char
  | '.' :: rest => ('.' :: rest.takeWhile Char.isDigit, rest.dropWhile Char.isDigit)
  | rest => ([], rest)

/-- The sign that may stand before the digits of an exponent, and what follows it. -/
def spanSign : List Char → List Char × List Char
  | '+' :: rest => (['+'], rest)
  | '-' :: rest => (['-'], rest)
  | rest => ([], rest)

/-- The exponent that may end a number, and what follows it. -/
def spanExponent : List Char → List Char × List Char
  | [] => ([], [])
  | c :: rest =>
    if c = 'e' || c = 'E' then
      let (sign, digits) := spanSign rest
      (c :: sign ++ digits.takeWhile Char.isDigit, digits.dropWhile Char.isDigit)
    else ([], c :: rest)

/-- The characters of a number and what follows them. -/
def spanNumber (s : List Char) : List Char × List Char :=
  let (fraction, afterFraction) := spanFraction (s.dropWhile Char.isDigit)
  let (exponent, rest) := spanExponent afterFraction
  (s.takeWhile Char.isDigit ++ fraction ++ exponent, rest)

/-- The tokens that are one character whatever follows it. -/
def singleToken? : Char → Option Token
  | '(' => some .openParen
  | ')' => some .closeParen
  | ',' => some .comma
  | ':' => some .colon
  | '!' => some .bang
  | '+' => some (.operator .add)
  | '-' => some (.operator .sub)
  | '*' => some (.operator .mul)
  | '/' => some (.operator .div)
  | '^' => some (.operator .pow)
  | '=' => some (.operator .eq)
  | _ => none

/-- The operator that starts with `<`, and what follows it. -/
def readLess : List Char → BinaryOp × List Char
  | '=' :: rest => (.le, rest)
  | '>' :: rest => (.ne, rest)
  | rest => (.lt, rest)

/-- The operator that starts with `>`, and what follows it. -/
def readGreater : List Char → BinaryOp × List Char
  | '=' :: rest => (.ge, rest)
  | rest => (.gt, rest)

/-- The text or quoted name after an opening quote, and what follows it. -/
def readQuotedToken (quote : Char) (s : List Char) : Except SyntaxFault (Token × List Char) :=
  match readQuoted quote s with
  | none => .error .unterminatedText
  | some (content, rest) =>
    .ok (if quote = '"' then .text (String.ofList content) else .quotedName (String.ofList content),
      rest)

/-- The number at the start of a text, and what follows it. -/
def readNumberToken (s : List Char) : Except SyntaxFault (Token × List Char) :=
  match readNumber (spanNumber s).1 with
  | some value => .ok (.number value, (spanNumber s).2)
  | none => .error (.invalidNumber (String.ofList (spanNumber s).1))

/-- The token that starts with a character that is not blank, and what follows it. -/
def readToken (c : Char) (rest : List Char) : Except SyntaxFault (Token × List Char) :=
  if c = '"' || c = '\'' then readQuotedToken c rest
  else if let some token := singleToken? c then .ok (token, rest)
  else if c = '<' then .ok (.operator (readLess rest).1, (readLess rest).2)
  else if c = '>' then .ok (.operator (readGreater rest).1, (readGreater rest).2)
  else if isNumberStart c then readNumberToken (c :: rest)
  else if isIdentifierStart c then
    .ok (.identifier (String.ofList (c :: rest.takeWhile isIdentifierPart)),
      rest.dropWhile isIdentifierPart)
  else .error (.invalidCharacter c)

theorem readQuoted_length {quote : Char} {s content rest : List Char}
    (h : readQuoted quote s = some (content, rest)) : rest.length ≤ s.length := by
  fun_induction readQuoted quote s generalizing content rest with
  | case1 => simp at h
  | case2 => simp_all
  | case3 => simp at h
  | case4 s ih =>
    obtain ⟨r, hr, he⟩ := Option.map_eq_some_iff.1 h
    have := ih hr
    simp only [Prod.mk.injEq] at he
    simp only [← he.2, List.length_cons]
    omega
  | case5 d s hd =>
    simp only [Option.some.injEq, Prod.mk.injEq] at h
    simp [← h.2]
  | case6 c d s hc ih =>
    obtain ⟨r, hr, he⟩ := Option.map_eq_some_iff.1 h
    have := ih hr
    simp only [Prod.mk.injEq] at he
    simp only [← he.2, List.length_cons] at this ⊢
    omega

theorem dropWhile_length_le {α} (p : α → Bool) (s : List α) : (s.dropWhile p).length ≤ s.length :=
  (List.dropWhile_sublist p).length_le

theorem spanFraction_length (s : List Char) : (spanFraction s).2.length ≤ s.length := by
  unfold spanFraction
  split
  · exact Nat.le_succ_of_le (dropWhile_length_le _ _)
  · exact Nat.le_refl _

theorem spanSign_length (s : List Char) : (spanSign s).2.length ≤ s.length := by
  unfold spanSign
  split <;> simp

theorem spanExponent_length (s : List Char) : (spanExponent s).2.length ≤ s.length := by
  unfold spanExponent
  split
  · simp
  · split
    · exact Nat.le_succ_of_le (Nat.le_trans (dropWhile_length_le _ _) (spanSign_length _))
    · simp

theorem spanNumber_length {c : Char} {s : List Char} (h : isNumberStart c = true) :
    (spanNumber (c :: s)).2.length ≤ s.length := by
  have h1 : (spanNumber (c :: s)).2.length ≤
      (spanFraction ((c :: s).dropWhile Char.isDigit)).2.length := spanExponent_length _
  refine Nat.le_trans h1 ?_
  by_cases hd : c.isDigit = true
  · rw [List.dropWhile_cons_of_pos hd]
    exact Nat.le_trans (spanFraction_length _) (dropWhile_length_le _ _)
  · have hc : c = '.' := by simpa [isNumberStart, hd] using h
    subst hc
    rw [List.dropWhile_cons_of_neg hd]
    exact dropWhile_length_le _ _

theorem readLess_length (s : List Char) : (readLess s).2.length ≤ s.length := by
  unfold readLess
  split <;> simp

theorem readGreater_length (s : List Char) : (readGreater s).2.length ≤ s.length := by
  unfold readGreater
  split <;> simp

theorem readToken_length {c : Char} {s rest : List Char} {t : Token}
    (h : readToken c s = .ok (t, rest)) : rest.length ≤ s.length := by
  unfold readToken at h
  split at h
  · unfold readQuotedToken at h
    split at h
    · simp at h
    · rename_i hq
      simp only [Except.ok.injEq, Prod.mk.injEq] at h
      exact h.2 ▸ readQuoted_length hq
  split at h
  · simp only [Except.ok.injEq, Prod.mk.injEq] at h
    exact h.2 ▸ Nat.le_refl _
  split at h
  · simp only [Except.ok.injEq, Prod.mk.injEq] at h
    exact h.2 ▸ readLess_length s
  split at h
  · simp only [Except.ok.injEq, Prod.mk.injEq] at h
    exact h.2 ▸ readGreater_length s
  split at h
  · rename_i hn
    unfold readNumberToken at h
    split at h
    · simp only [Except.ok.injEq, Prod.mk.injEq] at h
      exact h.2 ▸ spanNumber_length hn
    · simp at h
  split at h
  · simp only [Except.ok.injEq, Prod.mk.injEq] at h
    exact h.2 ▸ dropWhile_length_le _ _
  · simp at h

/-- The tokens of a text whose first character stands at a position. -/
def tokensFrom (position : Nat) (s : List Char) : Except SyntaxError (List PlacedToken) :=
  match s with
  | [] => .ok []
  | c :: rest =>
    if isBlank c then tokensFrom (position + 1) rest
    else
      match h : readToken c rest with
      | .error fault => .error ⟨fault, position⟩
      | .ok (token, after) =>
        (tokensFrom (position + 1 + (rest.length - after.length)) after).map
          (⟨token, position⟩ :: ·)
termination_by s.length
decreasing_by
  · simp
  · have := readToken_length h
    simp only [List.length_cons]
    omega

/-- The tokens of a formula, written with or without a leading `=`. -/
def tokenize (formula : String) : Except SyntaxError (List PlacedToken) :=
  match formula.toList with
  | '=' :: rest => tokensFrom 1 rest
  | s => tokensFrom 0 s

end Spreadsheet
