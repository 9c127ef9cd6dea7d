/-
What is printed is read again as it was. The tokens of an expression are a
phrase with the expression as its tree (`Expr.derives_tokens`), each of them
is written in a way that reads as it, and no blanks are needed between them.
So the text of an expression is read to the expression, wherever its sheets
are found by their names (`parse_print`).
-/
import Spreadsheet.Proofs.CanonicalLabels
import Spreadsheet.Proofs.Parsing
import Spreadsheet.Proofs.Spacing

namespace Spreadsheet

/-! ## Kinds of phrases -/

theorem Phrase.strength_tighter {needed actual : Phrase} (hne : needed ≠ actual)
    (h : needed.strength ≤ actual.strength) :
    needed.tighter.strength = needed.strength + 1 ∧ needed.tighter.strength ≤ actual.strength := by
  revert h
  cases needed <;> cases actual <;> first | exact absurd rfl hne | decide

/-- A phrase can stand where a looser kind is needed. -/
theorem Derives.loosen {scope : Scope} {needed actual : Phrase} {s : List Token} {e : Expr}
    (h : Derives scope actual s e) (hk : needed.strength ≤ actual.strength) :
    Derives scope needed s e := by
  by_cases heq : needed = actual
  · exact heq ▸ h
  · have hstrength := Phrase.strength_tighter heq hk
    exact .looser (h.loosen hstrength.2)
termination_by actual.strength - needed.strength
decreasing_by omega

/-- In parentheses where it needs them, a phrase can stand anywhere. -/
theorem Derives.enclose {scope : Scope} {actual : Phrase} {s : List Token} {e : Expr}
    (h : Derives scope actual s e) (needed : Phrase) :
    Derives scope needed (needed.enclose actual s) e := by
  unfold Phrase.enclose
  split
  · rename_i hk
    exact h.loosen hk
  · have hinner : Derives scope .comparison s e := h.loosen (Nat.zero_le _)
    exact (Derives.parentheses hinner).loosen needed.strength_le

/-! ## Tokens of an expression -/

theorem Range.ofCorners_corners (r : Range) :
    Range.ofCorners r.sheet r.firstRow r.firstCol r.lastRow r.lastCol = r := by
  simp [ofCorners, r.rows_ordered, r.cols_ordered]

theorem Function.ofName?_name (f : Function) : Function.ofName? f.name = some f := by
  cases f <;> decide

/-- Whether a leaf is read back as it is printed: numbers are written as literals for them, names
are valid, and sheets are found by their names. -/
def Expr.ReadsBack (literal : Float → List Char) (sheetName : Nat → String)
    (sheetNamed : String → Option Nat) : Expr → Prop
  | .number x => IsLiteral (literal x) x
  | .name n => isValidName n = true
  | .reference target => sheetNamed (sheetName target.sheet) = some target.sheet
  | .text _ | .call _ _ | .binary _ _ _ | .unary _ _ => True

section Tokens

variable {scope : Scope} {literal : Float → List Char} {sheetName : Nat → String}

theorem derivesCell_tokens (cell : CellAddress)
    (h : scope.sheetNamed (sheetName cell.sheet) = some cell.sheet) :
    DerivesCell scope (cell.tokens sheetName) cell := by
  refine .onSheet ?_ h (parseLabel_positionLabel cell.row cell.col)
  unfold sheetToken
  split
  · exact .inl rfl
  · exact .inr rfl

theorem derivesReference_tokens {target : Reference}
    (h : scope.sheetNamed (sheetName target.sheet) = some target.sheet) :
    DerivesReference scope (target.tokens sheetName) target := by
  cases target with
  | cell cell => exact .cell (derivesCell_tokens cell h)
  | range r =>
    have hrange := DerivesReference.range (derivesCell_tokens r.corners.1 h)
      (derivesCell_tokens r.corners.2 h) rfl
    rwa [Range.corners, Range.ofCorners_corners] at hrange

mutual

theorem Expr.derives_tokens : ∀ e : Expr,
    (∀ leaf ∈ e.leaves, leaf.ReadsBack literal sheetName scope.sheetNamed) →
    Derives scope e.phrase (e.tokens sheetName) e
  | .number x, _ => .number x
  | .text content, _ => .text content
  | .reference target, h => .reference (derivesReference_tokens (h _ (List.mem_singleton_self _)))
  | .name n, h => .name (h _ (List.mem_singleton_self _))
  | .call f arguments, h => .call f.ofName?_name (derives_argumentTokens arguments h)
  | .binary op left right, h => by
    have hleft := (left.derives_tokens fun leaf hl => h leaf (List.mem_append_left _ hl)).enclose
      op.leftPhrase
    have hright := (right.derives_tokens fun leaf hl => h leaf (List.mem_append_right _ hl)).enclose
      op.rightPhrase
    by_cases hpow : op = .pow
    · subst hpow
      exact .power hleft hright
    · refine .operator (BinaryOp.mem_operators_phrase hpow) ?_ ?_
      · cases op <;> first | exact hleft | exact absurd rfl hpow
      · cases op <;> first | exact hright | exact absurd rfl hpow
  | .unary op operand, h => .sign ((operand.derives_tokens h).enclose .signed)

theorem derives_argumentTokens : ∀ es : List Expr,
    (∀ leaf ∈ leavesOfAll es, leaf.ReadsBack literal sheetName scope.sheetNamed) →
    DerivesArguments scope (argumentTokens sheetName es) es
  | [], _ => .none
  | [e], h => .last ((e.derives_tokens fun leaf hl =>
      h leaf (List.mem_append_left _ hl)).loosen (Nat.zero_le _))
  | e :: next :: rest, h =>
    .more ((e.derives_tokens fun leaf hl => h leaf (List.mem_append_left _ hl)).loosen
      (Nat.zero_le _)) (derives_argumentTokens (next :: rest) fun leaf hl =>
        h leaf (List.mem_append_right _ hl))

end

/-! ## Words -/

/-- Whether a text is an identifier. -/
def isIdentifier : List Char → Bool
  | [] => false
  | c :: rest => isIdentifierStart c && rest.all isIdentifierPart

theorem Token.writtenAs_identifier {name : String} (h : isIdentifier name.toList = true) :
    (Token.identifier name).WrittenAs name.toList := by
  cases hname : name.toList with
  | nil =>
    rw [hname] at h
    cases h
  | cons c rest =>
    rw [hname, isIdentifier, Bool.and_eq_true] at h
    rw [← String.ofList_toList (s := name), hname]
    exact .identifier h.1 h.2

theorem isIdentifierStart_of_isAlpha {c : Char} (h : c.isAlpha = true) :
    isIdentifierStart c = true := by
  simp [isIdentifierStart, isAlphabetic_of_isAlpha h]

theorem isIdentifierPart_of_isAlphanum {c : Char} (h : c.isAlphanum = true) :
    isIdentifierPart c = true := by
  rw [Char.isAlphanum, Bool.or_eq_true] at h
  rcases h with h | h
  · simp [isIdentifierPart, isAlphanumeric, isAlphabetic_of_isAlpha h]
  · simp [isIdentifierPart, isAlphanumeric, isNumeric_of_isDigit h]

theorem isIdentifier_of_isValidName {name : String} (h : isValidName name = true) :
    isIdentifier name.toList = true := by
  unfold isValidName isNameChars at h
  split at h
  · cases h
  · rename_i c rest hname
    simp only [Bool.and_eq_true, List.all_eq_true] at h
    simp only [hname, isIdentifier, Bool.and_eq_true, List.all_eq_true]
    refine ⟨?_, fun d hd => ?_⟩
    · have hstart := h.1.1
      rw [isNameStart] at hstart
      rw [isIdentifierStart, hstart, Bool.true_or]
    · have hpart := h.1.2 d hd
      rw [isNamePart] at hpart
      rw [isIdentifierPart, hpart, Bool.true_or]

theorem isIdentifier_of_isPlainSheetName {name : List Char} (h : isPlainSheetName name = true) :
    isIdentifier name = true := by
  cases name with
  | nil => cases h
  | cons c rest =>
    simp only [isPlainSheetName, Bool.and_eq_true, List.all_cons, List.all_eq_true, Bool.or_eq_true,
      beq_iff_eq, Bool.not_eq_true'] at h
    obtain ⟨⟨hc, hrest⟩, hdigit⟩ := h
    simp only [isIdentifier, Bool.and_eq_true, List.all_eq_true]
    refine ⟨?_, fun d hd => ?_⟩
    · rcases hc with hc | rfl
      · rw [Char.isAlphanum, hdigit, Bool.or_false] at hc
        exact isIdentifierStart_of_isAlpha hc
      · decide
    · rcases hrest d hd with hd | rfl
      · exact isIdentifierPart_of_isAlphanum hd
      · decide

theorem LabelSpelling.isIdentifier_text (s : LabelSpelling) : isIdentifier s.text.toList = true := by
  have hparts : ∀ c ∈ s.letters ++ (dollarIf s.rowFixed ++ s.digits), isIdentifierPart c = true := by
    intro c hc
    rcases List.mem_append.1 hc with hc | hc
    · apply isIdentifierPart_of_isAlphanum
      rw [Char.isAlphanum, s.isAlpha_of_mem c hc, Bool.true_or]
    rcases List.mem_append.1 hc with hc | hc
    · rw [eq_of_mem_dollarIf hc]
      decide
    · apply isIdentifierPart_of_isAlphanum
      rw [Char.isAlphanum, s.isDigit_of_mem c hc, Bool.or_true]
  rw [text, String.toList_ofList]
  cases s.columnFixed with
  | true =>
    change (isIdentifierStart '$' && List.all _ isIdentifierPart) = true
    rw [Bool.and_eq_true, List.all_eq_true]
    exact ⟨by decide, hparts⟩
  | false =>
    obtain ⟨c, letters, hletters⟩ := List.exists_cons_of_ne_nil s.letters_ne_nil
    have halpha : c.isAlpha = true := s.isAlpha_of_mem c (hletters ▸ List.mem_cons_self)
    rw [hletters] at hparts ⊢
    change (isIdentifierStart c && List.all _ isIdentifierPart) = true
    rw [Bool.and_eq_true, List.all_eq_true]
    exact ⟨isIdentifierStart_of_isAlpha halpha, fun d hd => hparts d (List.mem_cons_of_mem c hd)⟩

theorem isIdentifier_of_parseLabel {text : String} {row col : UInt32}
    (h : parseLabel text = some (row, col)) : isIdentifier text.toList = true := by
  obtain ⟨s, rfl⟩ := LabelSpelling.exists_text h
  exact s.isIdentifier_text

theorem isIdentifier_label (cell : CellAddress) : isIdentifier cell.label.toList = true :=
  isIdentifier_of_parseLabel (parseLabel_positionLabel cell.row cell.col)

theorem isIdentifier_functionName (f : Function) : isIdentifier f.name.toList = true := by
  cases f <;> decide

/-! ## Writing the tokens -/

theorem writtenAs_sheetToken (name : String) :
    (sheetToken name).WrittenAs ((sheetToken name).written literal) := by
  unfold sheetToken
  split
  · rename_i hplain
    exact Token.writtenAs_identifier (isIdentifier_of_isPlainSheetName hplain)
  · exact .quotedName name

theorem writtenAs_cell {cell : CellAddress} {t : Token} (ht : t ∈ cell.tokens sheetName) :
    t.WrittenAs (t.written literal) := by
  simp only [CellAddress.tokens, List.mem_cons, List.not_mem_nil, or_false] at ht
  rcases ht with rfl | rfl | rfl
  · exact writtenAs_sheetToken _
  · exact .bang
  · exact Token.writtenAs_identifier (isIdentifier_label cell)

theorem writtenAs_reference {target : Reference} {t : Token} (ht : t ∈ target.tokens sheetName) :
    t.WrittenAs (t.written literal) := by
  cases target with
  | cell cell => exact writtenAs_cell ht
  | range r =>
    rcases List.mem_append.1 ht with ht | ht
    · exact writtenAs_cell ht
    · rcases List.mem_cons.1 ht with rfl | ht
      · exact .colon
      · exact writtenAs_cell ht

theorem writtenAs_enclose {needed actual : Phrase} {s : List Token} {t : Token}
    (hs : ∀ u ∈ s, u.WrittenAs (u.written literal)) (ht : t ∈ needed.enclose actual s) :
    t.WrittenAs (t.written literal) := by
  unfold Phrase.enclose at ht
  split at ht
  · exact hs t ht
  · simp only [List.cons_append, List.mem_cons, List.mem_append, List.not_mem_nil, or_false] at ht
    rcases ht with rfl | ht | rfl
    · exact .openParen
    · exact hs t ht
    · exact .closeParen

mutual

theorem Expr.writtenAs_tokens {sheetNamed : String → Option Nat} : ∀ e : Expr,
    (∀ leaf ∈ e.leaves, leaf.ReadsBack literal sheetName sheetNamed) →
    ∀ t ∈ e.tokens sheetName, t.WrittenAs (t.written literal)
  | .number x, h, t, ht => by
    obtain rfl := List.mem_singleton.1 ht
    exact .number (h _ (List.mem_singleton_self _))
  | .text content, _, t, ht => by
    obtain rfl := List.mem_singleton.1 ht
    exact .text content
  | .reference target, _, t, ht => writtenAs_reference ht
  | .name n, h, t, ht => by
    obtain rfl := List.mem_singleton.1 ht
    have hname : isValidName n = true := h _ (List.mem_singleton_self _)
    exact Token.writtenAs_identifier (isIdentifier_of_isValidName hname)
  | .call f arguments, h, t, ht => by
    simp only [Expr.tokens, List.cons_append, List.mem_cons, List.mem_append, List.not_mem_nil,
      or_false] at ht
    rcases ht with rfl | rfl | ht | rfl
    · exact Token.writtenAs_identifier (isIdentifier_functionName f)
    · exact .openParen
    · exact writtenAs_argumentTokens arguments h t ht
    · exact .closeParen
  | .binary op left right, h, t, ht => by
    simp only [Expr.tokens, List.mem_append, List.mem_cons] at ht
    rcases ht with ht | rfl | ht
    · exact writtenAs_enclose (left.writtenAs_tokens fun leaf hl =>
        h leaf (List.mem_append_left _ hl)) ht
    · exact .operator op
    · exact writtenAs_enclose (right.writtenAs_tokens fun leaf hl =>
        h leaf (List.mem_append_right _ hl)) ht
  | .unary op operand, h, t, ht => by
    rcases List.mem_cons.1 ht with rfl | ht
    · exact .operator op.symbol
    · exact writtenAs_enclose (operand.writtenAs_tokens h) ht

theorem writtenAs_argumentTokens {sheetNamed : String → Option Nat} : ∀ es : List Expr,
    (∀ leaf ∈ leavesOfAll es, leaf.ReadsBack literal sheetName sheetNamed) →
    ∀ t ∈ argumentTokens sheetName es, t.WrittenAs (t.written literal)
  | [], _, t, ht => nomatch ht
  | [e], h, t, ht => e.writtenAs_tokens (fun leaf hl => h leaf (List.mem_append_left _ hl)) t ht
  | e :: next :: rest, h, t, ht => by
    simp only [argumentTokens, List.mem_append, List.mem_cons] at ht
    rcases ht with ht | rfl | ht
    · exact e.writtenAs_tokens (fun leaf hl => h leaf (List.mem_append_left _ hl)) t ht
    · exact .comma
    · exact writtenAs_argumentTokens (next :: rest)
        (fun leaf hl => h leaf (List.mem_append_right _ hl)) t ht

end

end Tokens

/-! ## Reading what is printed -/

theorem tokenize_of_head {s : String} (h : ∀ c ∈ s.toList.head?, c ≠ '=') :
    tokenize s = tokensFrom 0 s.toList := by
  unfold tokenize
  split
  · rename_i hs
    exact absurd rfl (h '=' (by rw [hs]; rfl))
  · rfl

theorem tokenize_equals (s : String) : tokenize ("=" ++ s) = tokensFrom 1 s.toList := by
  unfold tokenize
  rw [String.toList_append]
  rfl

theorem Formula.parse_of_tokenize {s : String} {tokens : Tokens} (h : tokenize s = .ok tokens)
    (originSheet : Nat) (sheetNamed : String → Option Nat) : parse s originSheet sheetNamed =
      (parseTokens ⟨originSheet, sheetNamed, s.length⟩ tokens).map (⟨s, ·⟩) := by
  rw [parse, h]
  rfl

/-- **Tokens that derive a tree are read to it** when they are written one after the other, with an
equals sign before them or without. -/
theorem parse_written {literal : Float → List Char} {originSheet : Nat}
    {sheetNamed : String → Option Nat} {s : List Token} {e : Expr}
    (hderives : ∀ position, Derives ⟨originSheet, sheetNamed, position⟩ .comparison s e)
    (hwritten : ∀ t ∈ s, t.WrittenAs (t.written literal)) :
    let text := String.ofList (s.flatMap (Token.written literal))
    Formula.parse text originSheet sheetNamed = .ok ⟨text, e⟩ ∧
      Formula.parse ("=" ++ text) originSheet sheetNamed = .ok ⟨"=" ++ text, e⟩ := by
  intro text
  have hspaced := (hderives 0).spaced
  have hread : ∀ position, ∃ tokens, tokens.map PlacedToken.token = s ∧
      tokensFrom position (s.flatMap (Token.written literal)) = .ok tokens := fun position => by
    obtain ⟨tokens, htokens, hspelled⟩ := exists_spelled hspaced.chain hwritten position
    exact ⟨tokens, htokens, hspelled.tokensFrom⟩
  have hhead : ∀ c ∈ (s.flatMap (Token.written literal)).head?, c ≠ '=' :=
    fun c hc => by simpa [Token.mayContinue] using hspaced.endsBefore hwritten .gt c hc
  have htree : ∀ {position tokens}, tokens.map PlacedToken.token = s →
      parseTokens ⟨originSheet, sheetNamed, position⟩ tokens = .ok e := fun htokens =>
    Derives.parseTokens (htokens ▸ hderives _)
  have htext : text.toList = s.flatMap (Token.written literal) := String.toList_ofList
  rw [← htext] at hread hhead
  constructor
  · obtain ⟨tokens, htokens, hlex⟩ := hread 0
    rw [← tokenize_of_head hhead] at hlex
    rw [Formula.parse_of_tokenize hlex, htree htokens]
    rfl
  · obtain ⟨tokens, htokens, hlex⟩ := hread 1
    rw [← tokenize_equals] at hlex
    rw [Formula.parse_of_tokenize hlex, htree htokens]
    rfl

/-- **An expression is read from its text**, with an equals sign before it or without. -/
theorem parse_print {literal : Float → List Char} {sheetName : Nat → String}
    {sheetNamed : String → Option Nat} {e : Expr}
    (h : ∀ leaf ∈ e.leaves, leaf.ReadsBack literal sheetName sheetNamed) (originSheet : Nat) :
    Formula.parse (e.print literal sheetName) originSheet sheetNamed =
        .ok ⟨e.print literal sheetName, e⟩ ∧
      Formula.parse ("=" ++ e.print literal sheetName) originSheet sheetNamed =
        .ok ⟨"=" ++ e.print literal sheetName, e⟩ :=
  parse_written (fun _ => (e.derives_tokens h).loosen (Nat.zero_le _)) (e.writtenAs_tokens h)

/-! ## The sheets of a workbook -/

theorem Store.sheetNamed?_sheetName {s : Store} (h : s.sheets.Nodup) {sheet : Nat}
    (hs : s.hasSheet sheet = true) :
    s.sheetNamed? ((s.sheetName? sheet).getD "") = some sheet := by
  have hlt : sheet < s.sheets.length := of_decide_eq_true hs
  have hname : s.sheetName? sheet = some s.sheets[sheet] := List.getElem?_eq_getElem hlt
  rw [hname, Option.getD_some, sheetNamed?, List.findIdx?_eq_some_iff_getElem]
  refine ⟨hlt, beq_self_eq_true _, fun j hj heq => ?_⟩
  have hsame : j = sheet := h.getElem_inj_iff.1 (beq_iff_eq.1 heq)
  omega

namespace Workbook

theorem Step.nodup_sheets {w u : Workbook} (hs : w.Step u) (h : w.store.sheets.Nodup) :
    u.store.sheets.Nodup := by
  rcases hs.sheets_cases with hsheets | ⟨name, hnew, hsheets⟩
  · exact hsheets ▸ h
  · rw [hsheets]
    refine List.nodup_append.2 ⟨h, List.nodup_singleton name, fun a ha b hb hab => ?_⟩
    obtain rfl := List.mem_singleton.1 hb
    exact Store.sheetNamed?_eq_none.1 hnew (hab ▸ ha)

theorem Reachable.nodup_sheets {w : Workbook} (h : w.Reachable) : w.store.sheets.Nodup :=
  h.step_induction (fun _ => List.nodup_nil) fun _ _ hw hs => hs.nodup_sheets hw

/--
**Printing a formula and reading it again gives the formula back.** For a workbook that has come
about by any operations and an expression whose numbers are written as literals for them, whose
names are valid and whose references lie on sheets of the workbook: the text of the expression, in
which references are written with their sheets, is read to the same expression wherever it stands,
with an equals sign before it or without.
-/
theorem print_reads_back (policy : TextPolicy) (operations : List Operation)
    (literal : Float → List Char) (e : Expr) (origin : CellAddress)
    (hnumbers : ∀ x, .number x ∈ e.leaves → IsLiteral (literal x) x)
    (hnames : ∀ n, .name n ∈ e.leaves → isValidName n = true)
    (hreferences : ∀ target, .reference target ∈ e.leaves →
      ((empty policy).run operations).store.hasSheet target.sheet = true) :
    let store := ((empty policy).run operations).store
    let text := e.print literal fun sheet => (store.sheetName? sheet).getD ""
    Formula.parse text origin.sheet store.sheetNamed? = .ok ⟨text, e⟩ ∧
      Formula.parse ("=" ++ text) origin.sheet store.sheetNamed? = .ok ⟨"=" ++ text, e⟩ := by
  intro store text
  have hnodup : store.sheets.Nodup := Reachable.nodup_sheets ⟨policy, operations, rfl⟩
  refine parse_print (fun leaf hleaf => ?_) origin.sheet
  cases leaf with
  | number x => exact hnumbers x hleaf
  | name n => exact hnames n hleaf
  | reference target => exact Store.sheetNamed?_sheetName hnodup (hreferences target hleaf)
  | text | call | binary | unary => trivial

/-- A sheet whose name has a quote in it, a range, and parentheses where they are needed. -/
theorem print_reads_back_quoted :
    let store := ((empty .skip).run [.appendSheet "it's"]).store
    let x := Decimal.toFloat false ⟨15, -1⟩
    let range := Range.ofCorners 0 0 0 1 27
    let e := Expr.binary .sub (.number x)
      (.binary .sub (.call .sum [.reference (.range range)]) (.unary .neg (.name "rate")))
    Formula.parse "=1.5-(SUM('it''s'!A1:'it''s'!AB2)--rate)" 0 store.sheetNamed? =
      .ok ⟨"=1.5-(SUM('it''s'!A1:'it''s'!AB2)--rate)", e⟩ := by
  intro store x range e
  have hleaves : e.leaves = [.number x, .reference (.range range), .name "rate"] := rfl
  have hnumbers : ∀ y, .number y ∈ e.leaves → IsLiteral ['1', '.', '5'] y := by
    intro y hy
    obtain rfl : y = x := by simpa [hleaves] using hy
    exact ⟨rfl, rfl, rfl⟩
  have hnames : ∀ n, .name n ∈ e.leaves → isValidName n = true := by
    intro n hn
    obtain rfl : n = "rate" := by simpa [hleaves] using hn
    decide
  have hreferences : ∀ target, .reference target ∈ e.leaves →
      store.hasSheet target.sheet = true := by
    intro target htarget
    obtain rfl : target = .range range := by simpa [hleaves] using htarget
    rfl
  have htext : "=" ++ e.print (fun _ => ['1', '.', '5'])
      (fun sheet => (store.sheetName? sheet).getD "") =
      "=1.5-(SUM('it''s'!A1:'it''s'!AB2)--rate)" := by cbv
  have h := (print_reads_back .skip [.appendSheet "it's"] (fun _ => ['1', '.', '5']) e ⟨0, 0, 0⟩
    hnumbers hnames hreferences).2
  rwa [htext] at h

end Workbook

end Spreadsheet
