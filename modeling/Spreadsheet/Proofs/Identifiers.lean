/-
What a single word means. The texts that are read to one identifier are the
words (`tokenize_eq_identifier_iff`). As a formula a word is a name if it is a
valid one, a cell if it is a label within the grid, and otherwise a reference
that cannot be read (`Formula.parse_identifier_cases`). No word is both, and
every name and every label is a word.
-/
import Spreadsheet.Proofs.CanonicalLabels
import Spreadsheet.Proofs.Printing

namespace Spreadsheet

/-! ## Words -/

theorem singleToken?_ne_identifier (c : Char) (name : String) :
    singleToken? c ≠ some (.identifier name) := by
  unfold singleToken?
  split <;> simp

theorem readToken_eq_identifier {c : Char} {rest after : List Char} {name : String}
    (h : readToken c rest = .ok (.identifier name, after)) :
    isIdentifier name.toList = true ∧ c :: rest = name.toList ++ after := by
  rcases readToken_cases c rest with
    hread | ⟨t, hsingle, hread⟩ | ⟨op, more, hread⟩ | hread | ⟨hstart, hread⟩ | hread <;>
    rw [hread] at h
  · unfold readQuotedToken at h
    split at h
    · cases h
    · split at h <;> cases h
  · cases h
    exact absurd hsingle (singleToken?_ne_identifier c name)
  · cases h
  · unfold readNumberToken at h
    split at h <;> cases h
  · cases h
    rw [String.toList_ofList, isIdentifier, hstart, Bool.true_and, List.cons_append,
      List.takeWhile_append_dropWhile]
    exact ⟨List.all_takeWhile, rfl⟩
  · cases h

/-- A text that is read to one identifier has it in its place. -/
theorem exists_of_tokensFrom_identifier {position place : Nat} {s : List Char} {name : String}
    (h : tokensFrom position s = .ok [⟨.identifier name, place⟩]) :
    isIdentifier name.toList = true ∧
      ∃ lead after, s = lead ++ name.toList ++ after ∧ place = position + lead.length := by
  induction position, s using tokensFrom.induct with
  | case1 position =>
    rw [tokensFrom] at h
    cases h
  | case2 position c rest hc ih =>
    rw [tokensFrom_blank hc] at h
    obtain ⟨hword, lead, after, rfl, rfl⟩ := ih h
    exact ⟨hword, c :: lead, after, rfl, by rw [List.length_cons]; omega⟩
  | case3 position c rest hc fault hread =>
    rw [tokensFrom_error (Bool.not_eq_true _ ▸ hc) hread] at h
    cases h
  | case4 position c rest hc token after hread =>
    rw [tokensFrom_token (Bool.not_eq_true _ ▸ hc) hread, map_eq_ok] at h
    obtain ⟨more, -, htokens⟩ := h
    cases htokens
    obtain ⟨hword, hs⟩ := readToken_eq_identifier hread
    exact ⟨hword, [], after, hs, rfl⟩

/-- **The texts that are read to one identifier are the words**, and it stands at their start. -/
theorem tokenize_eq_identifier_iff {s : String} {position : Nat} :
    tokenize s = .ok [⟨.identifier s, position⟩] ↔ isIdentifier s.toList = true ∧ position = 0 := by
  constructor
  · intro h
    unfold tokenize at h
    split at h
    · -- behind an equals sign there is too little left for all of the text
      rename_i rest hs
      obtain ⟨-, lead, after, rfl, -⟩ := exists_of_tokensFrom_identifier h
      have hlength := congrArg List.length hs
      simp only [List.length_cons, List.length_append] at hlength
      omega
    · obtain ⟨hword, lead, after, hs, rfl⟩ := exists_of_tokensFrom_identifier h
      have hlength := congrArg List.length hs
      simp only [List.length_append] at hlength
      exact ⟨hword, by omega⟩
  · rintro ⟨hs, rfl⟩
    have hhead : ∀ c ∈ s.toList.head?, c ≠ '=' := fun c hc => by
      rintro rfl
      obtain ⟨rest, hrest⟩ := List.head?_eq_some_iff.1 hc
      rw [hrest, isIdentifier] at hs
      cases hs
    have hspelled : Spelled 0 [⟨.identifier s, 0⟩] (s.toList ++ []) :=
      .token (Token.writtenAs_identifier hs) (by simp [Token.EndsBefore]) (.done _)
    rw [tokenize_of_head hhead, ← List.append_nil s.toList]
    exact hspelled.tokensFrom

/-! ## Readings -/

/-- What cannot be read as an operand cannot be read at all. -/
theorem parseTokens_of_parseOperand {scope : Scope} {t : PlacedToken} {rest : Tokens}
    {e : SyntaxError} (hsign : leadingSign? (t :: rest) = none)
    (h : ∀ n, parseOperand scope (n + 1) (t :: rest) = .error e) :
    parseTokens scope (t :: rest) = .error e := by
  have hfuel : callBound (t :: rest) = 10 * rest.length + 11 + 9 := by
    rw [callBound, List.length_cons]
    omega
  rw [parseTokens, List.isEmpty_cons, if_neg Bool.false_ne_true, parseExpression, hfuel]
  simp only [parsePhrase, Phrase.tighter, parsePower, parseSigned, hsign]
  rw [h]
  rfl

theorem parseTokens_name {scope : Scope} {s : String} {position : Nat}
    (h : isValidName s = true) :
    parseTokens scope [⟨.identifier s, position⟩] = .ok (.name s) := by
  have hname : Derives scope .comparison [.identifier s] (.name s) :=
    (Derives.name h).loosen (Nat.zero_le _)
  exact hname.parseTokens

theorem parseTokens_label {scope : Scope} {s : String} {position : Nat} {row col : UInt32}
    (h : parseLabel s = some (row, col)) : parseTokens scope [⟨.identifier s, position⟩] =
      .ok (.reference (.cell ⟨scope.originSheet, row, col⟩)) := by
  have hcell : Derives scope .comparison [.identifier s]
      (.reference (.cell ⟨scope.originSheet, row, col⟩)) :=
    (Derives.reference (.cell (.bare h))).loosen (Nat.zero_le _)
  exact hcell.parseTokens

theorem parseTokens_malformed {scope : Scope} {s : String} {position : Nat}
    (hname : isValidName s = false) (hlabel : parseLabel s = none) :
    parseTokens scope [⟨.identifier s, position⟩] = .error ⟨.malformedReference s, position⟩ := by
  refine parseTokens_of_parseOperand rfl fun n => ?_
  have haddress : CellPart.address ⟨scope.originSheet, none, s, position⟩ =
      .error ⟨.malformedReference s, position⟩ := by
    rw [CellPart.address, hlabel]
    rfl
  have hreference : parseReference scope [⟨.identifier s, position⟩] =
      .error ⟨.malformedReference s, position⟩ := by
    change CellPart.address ⟨scope.originSheet, none, s, position⟩ >>= _ = _
    rw [haddress]
    rfl
  rw [parseOperand.eq_def]
  simp only [hname, Bool.false_and, Bool.false_eq_true, if_false, hreference]
  rfl

/-- A formula of one identifier is a name, a cell of its own sheet, or malformed. -/
theorem Formula.parse_identifier_cases {s : String} {position : Nat}
    (h : tokenize s = .ok [⟨.identifier s, position⟩]) (originSheet : Nat)
    (sheetNamed : String → Option Nat) :
    let read := parse s originSheet sheetNamed
    isValidName s = true ∧ parseLabel s = none ∧ read = .ok ⟨s, .name s⟩ ∨
      (∃ row col, isValidName s = false ∧ parseLabel s = some (row, col) ∧
        read = .ok ⟨s, .reference (.cell ⟨originSheet, row, col⟩)⟩) ∨
      isValidName s = false ∧ parseLabel s = none ∧
        read = .error ⟨.malformedReference s, position⟩ := by
  intro read
  have hread : read = _ := parse_of_tokenize h originSheet sheetNamed
  cases hlabel : parseLabel s with
  | some p =>
    obtain ⟨row, col⟩ := p
    rw [parseTokens_label hlabel] at hread
    exact .inr (.inl ⟨row, col, isValidName_of_parseLabel hlabel, rfl, hread⟩)
  | none =>
    cases hname : isValidName s with
    | true =>
      rw [parseTokens_name hname] at hread
      exact .inl ⟨rfl, rfl, hread⟩
    | false =>
      rw [parseTokens_malformed hname hlabel] at hread
      exact .inr (.inr ⟨rfl, rfl, hread⟩)

namespace Workbook

/--
**Every identifier has exactly one reading.** If a text is read to one identifier, which is the text
itself, then as a formula it is the name if and only if it is a valid name, the cell of a row and
column of its own sheet if and only if it is their label, and fails if and only if it is neither;
the failure is then that of a malformed reference. No text is both a name and a label. The texts
that are valid names and those that are labels are all read to one identifier; so every name that
can be bound can be used, and every label can be referred to.
-/
theorem identifiers_have_one_reading (s : String) (originSheet : Nat)
    (sheetNamed : String → Option Nat) :
    let read := Formula.parse s originSheet sheetNamed
    (∀ position, tokenize s = .ok [⟨.identifier s, position⟩] →
        (read = .ok ⟨s, .name s⟩ ↔ isValidName s = true) ∧
          (∀ row col, read = .ok ⟨s, .reference (.cell ⟨originSheet, row, col⟩)⟩ ↔
            parseLabel s = some (row, col)) ∧
          ∀ e, read = .error e ↔ isValidName s = false ∧ parseLabel s = none ∧
            e = ⟨.malformedReference s, position⟩) ∧
      ¬ (isValidName s = true ∧ (parseLabel s).isSome = true) ∧
      (isValidName s = true → tokenize s = .ok [⟨.identifier s, 0⟩]) ∧
      (∀ (w : Workbook) source sheet, (w.defineName s source).2 = .ok () →
        (w.defineName s source).1.readFormula sheet s = .ok ⟨s, .name s⟩) ∧
      ∀ row col, parseLabel s = some (row, col) → tokenize s = .ok [⟨.identifier s, 0⟩] ∧
        read = .ok ⟨s, .reference (.cell ⟨originSheet, row, col⟩)⟩ := by
  intro read
  have hname : isValidName s = true → tokenize s = .ok [⟨.identifier s, 0⟩] := fun h =>
    tokenize_eq_identifier_iff.2 ⟨isIdentifier_of_isValidName h, rfl⟩
  refine ⟨fun position h => ?_, ?_, hname, fun w source sheet h => ?_, fun row col h => ?_⟩
  · rcases Formula.parse_identifier_cases h originSheet sheetNamed with
      ⟨hs, hlabel, hread⟩ | ⟨row, col, hs, hlabel, hread⟩ | ⟨hs, hlabel, hread⟩
    · simp [read, hread, hs, hlabel]
    · simp [read, hread, hs, hlabel]
    · simp [read, hread, hs, hlabel, eq_comm]
  · rintro ⟨hs, hlabel⟩
    obtain ⟨p, hp⟩ := Option.isSome_iff_exists.1 hlabel
    rw [isValidName_of_parseLabel hp] at hs
    cases hs
  · obtain ⟨-, hvalid, -, -, -⟩ := defineName_ok h
    have hread := Formula.parse_of_tokenize (hname hvalid) sheet
      (w.defineName s source).1.store.sheetNamed?
    rw [parseTokens_name hvalid] at hread
    exact readFormula_eq_ok.2 hread
  · have hword : tokenize s = .ok [⟨.identifier s, 0⟩] :=
      tokenize_eq_identifier_iff.2 ⟨isIdentifier_of_parseLabel h, rfl⟩
    refine ⟨hword, ?_⟩
    have hread := Formula.parse_of_tokenize hword originSheet sheetNamed
    rwa [parseTokens_label h] at hread

/-- A name that is bound to a cell, a label with signs and a leading zero, and a word with the
letters and digits of a label but no row zero to stand for. -/
theorem identifiers_have_one_reading_words :
    let w := (empty .skip).run [.appendSheet "S"]
    (isValidName "größe" = true ∧ (w.defineName "größe" "=A1").2 = .ok () ∧
        parseLabel "$b$07" = some (6, 1) ∧ tokenize "A0" = .ok [⟨.identifier "A0", 0⟩]) ∧
      (w.defineName "größe" "=A1").1.readFormula 0 "größe" = .ok ⟨"größe", .name "größe"⟩ ∧
      Formula.parse "$b$07" 0 (fun _ => none) = .ok ⟨"$b$07", .reference (.cell ⟨0, 6, 1⟩)⟩ ∧
      Formula.parse "A0" 0 (fun _ => none) = .error ⟨.malformedReference "A0", 0⟩ := by
  intro w
  have hvalid : isValidName "größe" = true := by decide +kernel
  have hdefine : (w.defineName "größe" "=A1").2 = .ok () := by
    rw [defineName, if_pos hvalid]
    cbv
  have hlabel : parseLabel "$b$07" = some (6, 1) := by cbv
  have hword : tokenize "A0" = .ok [⟨.identifier "A0", 0⟩] := by cbv
  have hneither : isValidName "A0" = false ∧ parseLabel "A0" = none := by cbv
  exact ⟨⟨hvalid, hdefine, hlabel, hword⟩,
    (identifiers_have_one_reading "größe" 0 fun _ => none).2.2.2.1 w "=A1" 0 hdefine,
    ((identifiers_have_one_reading "$b$07" 0 fun _ => none).2.2.2.2 6 1 hlabel).2,
    (((identifiers_have_one_reading "A0" 0 fun _ => none).1 0 hword).2.2 _).2
      ⟨hneither.1, hneither.2, rfl⟩⟩

end Workbook

end Spreadsheet
