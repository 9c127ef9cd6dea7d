/-
The parser accepts exactly its grammar. A phrase before tokens that cannot
continue it is read to its end, with ten nested calls for each of its tokens
(`completeOn`); what is read is a phrase, so that tokens have at most one
tree (`parseTokens_iff_derives`).
-/
import Spreadsheet.Proofs.ParserSound

namespace Spreadsheet

variable {scope : Scope}

/-! ## Every phrase is read -/

/-- Tokens that cannot continue a phrase of a kind. -/
inductive Phrase.EndsBefore (kind : Phrase) : Tokens → Prop where
  | nothing : kind.EndsBefore []
  | closeParen (position : Nat) (rest : Tokens) : kind.EndsBefore (⟨.closeParen, position⟩ :: rest)
  | comma (position : Nat) (rest : Tokens) : kind.EndsBefore (⟨.comma, position⟩ :: rest)
  | operator {op : BinaryOp} (position : Nat) (rest : Tokens) :
    op.phrase.strength < kind.strength → kind.EndsBefore (⟨.operator op, position⟩ :: rest)

theorem Phrase.phrase_of_mem {kind : Phrase} {op : BinaryOp} (h : op ∈ kind.operators) :
    op.phrase = kind := by
  revert h
  cases kind <;> cases op <;> decide

namespace Phrase.EndsBefore

variable {kind : Phrase} {rest : Tokens}

theorem mono {tighter : Phrase} (h : kind.EndsBefore rest)
    (hk : kind.strength ≤ tighter.strength) : tighter.EndsBefore rest := by
  cases h with
  | nothing => exact .nothing
  | closeParen => exact .closeParen _ _
  | comma => exact .comma _ _
  | operator _ _ hop => exact .operator _ _ (by omega)

theorem leadingOp? {ops : List BinaryOp} (h : kind.EndsBefore rest)
    (hops : ∀ op ∈ ops, op.phrase = kind) : leadingOp? ops rest = none := by
  cases h with
  | operator _ _ hop =>
    rw [Spreadsheet.leadingOp?, if_neg]
    intro hmem
    rw [hops _ hmem] at hop
    omega
  | _ => rfl

theorem endsName (h : kind.EndsBefore rest) : endsName rest = true := by
  cases h <;> rfl

end Phrase.EndsBefore

theorem exists_of_map_token_eq_cons {s : Tokens} {t : Token} {u : List Token}
    (h : s.map PlacedToken.token = t :: u) :
    ∃ position s', s = ⟨t, position⟩ :: s' ∧ s'.map PlacedToken.token = u := by
  obtain ⟨⟨t', position⟩, s', rfl, rfl, rfl⟩ := List.map_eq_cons_iff.1 h
  exact ⟨position, s', rfl, rfl⟩

theorem exists_of_map_token_eq_singleton {s : Tokens} {t : Token}
    (h : s.map PlacedToken.token = [t]) : ∃ position, s = [⟨t, position⟩] := by
  obtain ⟨position, s', rfl, hnil⟩ := exists_of_map_token_eq_cons h
  obtain rfl := List.map_eq_nil_iff.1 hnil
  exact ⟨position, rfl⟩

theorem Derives.length_pos {kind : Phrase} {s : Tokens} {e : Expr}
    (h : Derives scope kind (s.map PlacedToken.token) e) : 0 < s.length := by
  obtain ⟨t, s', hs, -⟩ := h.starts
  obtain ⟨position, u, rfl, -⟩ := exists_of_map_token_eq_cons hs
  exact Nat.succ_pos _

theorem isValidName_of_parseLabel {label : String} {p : UInt32 × UInt32}
    (h : parseLabel label = some p) : isValidName label = false := by
  have hshape : isLabelShaped label.toList = true := by
    simp only [parseLabel, readLabel, Option.bind_eq_bind, Option.bind_eq_some_iff] at h
    obtain ⟨col, hcol, row, hrow, -⟩ := h
    unfold readColumn at hcol
    unfold readRow at hrow
    split at hcol
    · cases hcol
    · split at hrow
      · cases hrow
      · simp_all [isLabelShaped]
  unfold isValidName isNameChars
  split
  · rfl
  · rename_i hchars
    rw [← hchars, hshape]
    simp

theorem parseCellPart_complete {s rest : Tokens} {a : CellAddress}
    (h : DerivesCell scope (s.map PlacedToken.token) a)
    (hrest : ∀ position rest', rest ≠ ⟨.bang, position⟩ :: rest') :
    ∃ part, parseCellPart scope (s ++ rest) = .ok (part, rest) ∧ part.address = .ok a := by
  generalize hs : s.map PlacedToken.token = bare at h
  cases h with
  | @bare label row col hlabel =>
    obtain ⟨position, rfl⟩ := exists_of_map_token_eq_singleton hs
    refine ⟨⟨scope.originSheet, none, label, position⟩, ?_,
      CellPart.address_eq_ok.2 ⟨row, col, hlabel, rfl⟩⟩
    rw [List.singleton_append, parseCellPart.eq_def]
    split <;> simp_all
  | @onSheet sheetToken name label sheet row col htoken hsheet hlabel =>
    obtain ⟨position, _, rfl, hbang⟩ := exists_of_map_token_eq_cons hs
    obtain ⟨bangPosition, _, rfl, hident⟩ := exists_of_map_token_eq_cons hbang
    obtain ⟨place, rfl⟩ := exists_of_map_token_eq_singleton hident
    refine ⟨⟨sheet, some name, label, position⟩, ?_,
      CellPart.address_eq_ok.2 ⟨row, col, hlabel, rfl⟩⟩
    have hpart : parseSheetPart scope name position (⟨.identifier label, place⟩ :: rest) =
        .ok (⟨sheet, some name, label, position⟩, rest) :=
      parseSheetPart_eq_ok.2 ⟨sheet, label, place, hsheet, rfl, rfl⟩
    rcases htoken with rfl | rfl
    · exact hpart
    · exact hpart

theorem parseReference_complete {s rest : Tokens} {target : Reference}
    (h : DerivesReference scope (s.map PlacedToken.token) target) (hrest : endsName rest = true) :
    parseReference scope (s ++ rest) = .ok (target, rest) := by
  have hbang : ∀ position rest', rest ≠ ⟨.bang, position⟩ :: rest' := by
    rintro position rest' rfl
    cases hrest
  generalize hs : s.map PlacedToken.token = bare at h
  cases h with
  | cell h =>
    subst hs
    obtain ⟨part, hpart, ha⟩ := parseCellPart_complete h hbang
    refine bind_eq_ok.2 ⟨_, hpart, bind_eq_ok.2 ⟨_, ha, ?_⟩⟩
    dsimp only
    split
    · cases hrest
    · rfl
  | @range s' t' a b h h' hsheet =>
    obtain ⟨s, u, rfl, rfl, hu⟩ := List.map_eq_append_iff.1 hs
    obtain ⟨position, t, rfl, rfl⟩ := exists_of_map_token_eq_cons hu
    obtain ⟨first, hfirst, ha⟩ := parseCellPart_complete h
      (show ∀ p r, ⟨.colon, position⟩ :: (t ++ rest) ≠ ⟨.bang, p⟩ :: r by simp)
    obtain ⟨last, hlast, hb⟩ := parseCellPart_complete h' hbang
    obtain ⟨row, col, -, rfl⟩ := CellPart.address_eq_ok.1 ha
    obtain ⟨row', col', -, rfl⟩ := CellPart.address_eq_ok.1 hb
    have hrange : rangeBetween first ⟨first.sheet, row, col⟩ last =
        .ok (.range (.ofCorners first.sheet row col row' col')) := by
      rw [rangeBetween, if_pos hsheet, hb]
      rfl
    rw [List.append_assoc, List.cons_append]
    exact bind_eq_ok.2 ⟨_, hfirst, bind_eq_ok.2 ⟨_, ha, bind_eq_ok.2 ⟨_, hlast,
      bind_eq_ok.2 ⟨_, hrange, rfl⟩⟩⟩⟩

-- Every token pays for ten calls, which is what it takes from an argument to its first operand. A
-- kind is at most two calls nearer to an operand than the next looser one.
/-- Every phrase before tokens that cannot continue it is read to its end, given enough nested
calls for its length. -/
structure CompleteOn (scope : Scope) (n : Nat) : Prop where
  phrase : ∀ kind (s : Tokens) e rest, Derives scope kind (s.map PlacedToken.token) e →
    kind.EndsBefore rest → 10 * (s.length + 1) ≤ n + 2 * kind.strength →
    parsePhrase scope n kind (s ++ rest) = .ok (e, rest)
  chain : ∀ kind left (s : Tokens) e rest,
    DerivesChain scope kind left (s.map PlacedToken.token) e → kind.EndsBefore rest →
    10 * s.length < n → parseChain scope n kind left (s ++ rest) = .ok (e, rest)
  power : ∀ (s : Tokens) e rest, Derives scope .power (s.map PlacedToken.token) e →
    Phrase.power.EndsBefore rest → 10 * (s.length + 1) ≤ n + 7 →
    parsePower scope n (s ++ rest) = .ok (e, rest)
  signed : ∀ (s : Tokens) e rest, Derives scope .signed (s.map PlacedToken.token) e →
    Phrase.signed.EndsBefore rest → 10 * (s.length + 1) ≤ n + 9 →
    parseSigned scope n (s ++ rest) = .ok (e, rest)
  operand : ∀ (s : Tokens) e rest, Derives scope .operand (s.map PlacedToken.token) e →
    Phrase.operand.EndsBefore rest → 10 * s.length ≤ n + 1 →
    parseOperand scope n (s ++ rest) = .ok (e, rest)
  arguments : ∀ (s : Tokens) es position rest,
    DerivesArguments scope (s.map PlacedToken.token) es → 10 * (s.length + 1) < n →
    parseArguments scope n (s ++ ⟨.closeParen, position⟩ :: rest) =
      .ok (es, ⟨.closeParen, position⟩ :: rest)
  more : ∀ (s : Tokens) es position rest, DerivesMore scope (s.map PlacedToken.token) es →
    10 * s.length < n → parseMoreArguments scope n (s ++ ⟨.closeParen, position⟩ :: rest) =
      .ok (es, ⟨.closeParen, position⟩ :: rest)

theorem Phrase.strength_le (kind : Phrase) : kind.strength ≤ 5 := by
  cases kind <;> decide

theorem CompleteOn.zero : CompleteOn scope 0 where
  phrase kind s e rest h _ hn := by
    have := h.length_pos
    have := kind.strength_le
    omega
  chain _ _ _ _ _ _ _ hn := by omega
  power _ _ _ _ _ hn := by omega
  signed _ _ _ _ _ hn := by omega
  operand _ _ _ h _ hn := by
    have := h.length_pos
    omega
  arguments _ _ _ _ _ hn := by omega
  more _ _ _ _ _ hn := by omega

/-- A phrase ends where a chain of its kind goes on. -/
theorem DerivesChain.endsBefore {kind : Phrase} {left e : Expr} {s rest : Tokens}
    (h : DerivesChain scope kind left (s.map PlacedToken.token) e) (hrest : kind.EndsBefore rest) :
    kind.tighter.EndsBefore (s ++ rest) := by
  generalize hs : s.map PlacedToken.token = bare at h
  cases h with
  | done =>
    obtain rfl := List.map_eq_nil_iff.1 hs
    exact hrest.mono (by cases kind <;> decide)
  | next hop =>
    obtain ⟨position, s', rfl, -⟩ := exists_of_map_token_eq_cons hs
    refine .operator _ _ ?_
    rw [Phrase.phrase_of_mem hop]
    revert hop
    cases kind <;> simp [Phrase.operators, Phrase.tighter, Phrase.strength]

theorem CompleteOn.succ_phrase {n : Nat} (ih : CompleteOn scope n) {kind : Phrase} {s rest : Tokens}
    {e : Expr} (h : Derives scope kind (s.map PlacedToken.token) e) (hrest : kind.EndsBefore rest)
    (hn : 10 * (s.length + 1) ≤ n + 1 + 2 * kind.strength) :
    parsePhrase scope (n + 1) kind (s ++ rest) = .ok (e, rest) := by
  cases kind with
  | operand => exact ih.operand s e rest h hrest (by simp only [Phrase.strength] at hn; omega)
  | signed => exact ih.signed s e rest h hrest (by simp only [Phrase.strength] at hn; omega)
  | power => exact ih.power s e rest h hrest (by simp only [Phrase.strength] at hn; omega)
  | comparison | sum | product =>
    obtain ⟨_, _, a, hs, hfirst, hchain⟩ := h.chain (by decide)
    obtain ⟨first, more, rfl, rfl, rfl⟩ := List.map_eq_append_iff.1 hs
    have := hfirst.length_pos
    simp only [Phrase.strength, List.length_append] at hn
    rw [List.append_assoc]
    refine bind_eq_ok.2 ⟨(a, more ++ rest), ?_, ?_⟩
    · exact ih.phrase _ _ _ _ hfirst (hchain.endsBefore hrest)
        (by simp only [Phrase.tighter, Phrase.strength]; omega)
    · exact ih.chain _ _ _ _ _ hchain hrest (by omega)

theorem CompleteOn.succ_chain {n : Nat} (ih : CompleteOn scope n) {kind : Phrase} {left e : Expr}
    {s rest : Tokens} (h : DerivesChain scope kind left (s.map PlacedToken.token) e)
    (hrest : kind.EndsBefore rest) (hn : 10 * s.length < n + 1) :
    parseChain scope (n + 1) kind left (s ++ rest) = .ok (e, rest) := by
  generalize hs : s.map PlacedToken.token = bare at h
  cases h with
  | done =>
    obtain rfl := List.map_eq_nil_iff.1 hs
    rw [List.nil_append, parseChain, hrest.leadingOp? fun _ => Phrase.phrase_of_mem]
  | @next op _ _ _ b _ hop hright hchain =>
    obtain ⟨position, s', rfl, hs'⟩ := exists_of_map_token_eq_cons hs
    obtain ⟨first, more, rfl, rfl, rfl⟩ := List.map_eq_append_iff.1 hs'
    simp only [List.length_cons, List.length_append] at hn
    have hlead : leadingOp? kind.operators (⟨.operator op, position⟩ :: (first ++ more) ++ rest) =
        some (op, first ++ (more ++ rest)) :=
      leadingOp?_eq_some.2 ⟨hop, position, by simp⟩
    rw [parseChain, hlead]
    refine bind_eq_ok.2 ⟨(b, more ++ rest), ?_, ?_⟩
    · exact ih.phrase _ _ _ _ hright (hchain.endsBefore hrest) (by omega)
    · exact ih.chain _ _ _ _ _ hchain hrest (by omega)

theorem CompleteOn.succ_power {n : Nat} (ih : CompleteOn scope n) {s rest : Tokens} {e : Expr}
    (h : Derives scope .power (s.map PlacedToken.token) e) (hrest : Phrase.power.EndsBefore rest)
    (hn : 10 * (s.length + 1) ≤ n + 1 + 7) :
    parsePower scope (n + 1) (s ++ rest) = .ok (e, rest) := by
  generalize hs : s.map PlacedToken.token = bare at h
  cases h with
  | looser h =>
    subst hs
    refine bind_eq_ok.2 ⟨(e, rest), ?_, ?_⟩
    · exact ih.phrase _ _ _ _ h (hrest.mono (by decide)) (by simp only [Phrase.strength]; omega)
    · have hlead : leadingOp? [.pow] rest = none := hrest.leadingOp? (by decide)
      dsimp only
      rw [hlead]
      rfl
  | operator hop => cases hop
  | @power _ _ a b hbase hexponent =>
    obtain ⟨base, s', rfl, rfl, hs'⟩ := List.map_eq_append_iff.1 hs
    obtain ⟨position, exponent, rfl, rfl⟩ := exists_of_map_token_eq_cons hs'
    simp only [List.length_append, List.length_cons] at hn
    rw [List.append_assoc]
    refine bind_eq_ok.2 ⟨(a, ⟨.operator .pow, position⟩ :: (exponent ++ rest)), ?_, ?_⟩
    · exact ih.phrase _ _ _ _ hbase (.operator _ _ (by decide))
        (by simp only [Phrase.strength]; omega)
    · refine bind_eq_ok.2 ⟨(b, rest), ?_, rfl⟩
      exact ih.phrase _ _ _ _ hexponent hrest (by simp only [Phrase.strength]; omega)

theorem Derives.leadingSign? {s rest : Tokens} {e : Expr}
    (h : Derives scope .operand (s.map PlacedToken.token) e) : leadingSign? (s ++ rest) = none := by
  obtain ⟨t, _, hs, ht⟩ := h.starts
  obtain ⟨position, s', rfl, -⟩ := exists_of_map_token_eq_cons hs
  cases t with
  | operator op => simp [Phrase.mayStart] at ht
  | _ => rfl

theorem CompleteOn.succ_signed {n : Nat} (ih : CompleteOn scope n) {s rest : Tokens} {e : Expr}
    (h : Derives scope .signed (s.map PlacedToken.token) e) (hrest : Phrase.signed.EndsBefore rest)
    (hn : 10 * (s.length + 1) ≤ n + 1 + 9) :
    parseSigned scope (n + 1) (s ++ rest) = .ok (e, rest) := by
  generalize hs : s.map PlacedToken.token = bare at h
  cases h with
  | looser h =>
    subst hs
    rw [parseSigned, h.leadingSign?]
    exact ih.phrase _ _ _ _ h (hrest.mono (by decide)) (by simp only [Phrase.strength]; omega)
  | operator hop => cases hop
  | @sign op _ a h =>
    obtain ⟨position, s', rfl, rfl⟩ := exists_of_map_token_eq_cons hs
    simp only [List.length_cons] at hn
    have hlead : leadingSign? (⟨.operator op.symbol, position⟩ :: s' ++ rest) =
        some (op, s' ++ rest) := leadingSign?_eq_some.2 ⟨position, rfl⟩
    rw [parseSigned, hlead]
    refine bind_eq_ok.2 ⟨(a, rest), ?_, rfl⟩
    exact ih.phrase _ _ _ _ h hrest (by simp only [Phrase.strength]; omega)

/-- Tokens that are read as a reference where an operand is needed. -/
inductive ReferenceStart : Tokens → Prop where
  | quoted (name : String) (position : Nat) (rest : Tokens) :
    ReferenceStart (⟨.quotedName name, position⟩ :: rest)
  | sheet (name : String) (position bangPosition : Nat) (rest : Tokens) :
    ReferenceStart (⟨.identifier name, position⟩ :: ⟨.bang, bangPosition⟩ :: rest)
  | label {label : String} (position : Nat) {rest : Tokens} : isValidName label = false →
    (∀ openPosition rest', rest ≠ ⟨.openParen, openPosition⟩ :: rest') →
    ReferenceStart (⟨.identifier label, position⟩ :: rest)

theorem ReferenceStart.parseOperand {tokens rest : Tokens} {target : Reference}
    (h : ReferenceStart tokens) (htarget : parseReference scope tokens = .ok (target, rest))
    (n : Nat) : parseOperand scope (n + 1) tokens = .ok (.reference target, rest) := by
  cases h with
  | quoted => exact bind_eq_ok.2 ⟨_, htarget, rfl⟩
  | sheet name =>
    rw [Spreadsheet.parseOperand, if_neg (by simp [endsName])]
    · exact bind_eq_ok.2 ⟨_, htarget, rfl⟩
    · simp
  | label _ hname hopen =>
    rw [Spreadsheet.parseOperand, if_neg (by simp [hname])]
    · exact bind_eq_ok.2 ⟨_, htarget, rfl⟩
    · exact hopen

theorem DerivesCell.referenceStart {s rest : Tokens} {a : CellAddress}
    (h : DerivesCell scope (s.map PlacedToken.token) a)
    (hrest : ∀ openPosition rest', rest ≠ ⟨.openParen, openPosition⟩ :: rest') :
    ReferenceStart (s ++ rest) := by
  generalize hs : s.map PlacedToken.token = bare at h
  cases h with
  | bare hlabel =>
    obtain ⟨position, rfl⟩ := exists_of_map_token_eq_singleton hs
    exact .label position (isValidName_of_parseLabel hlabel) hrest
  | onSheet htoken =>
    obtain ⟨position, _, rfl, hbang⟩ := exists_of_map_token_eq_cons hs
    obtain ⟨bangPosition, _, rfl, -⟩ := exists_of_map_token_eq_cons hbang
    rcases htoken with rfl | rfl
    · exact .sheet _ _ _ _
    · exact .quoted _ _ _

theorem DerivesReference.referenceStart {s rest : Tokens} {target : Reference}
    (h : DerivesReference scope (s.map PlacedToken.token) target)
    (hrest : ∀ openPosition rest', rest ≠ ⟨.openParen, openPosition⟩ :: rest') :
    ReferenceStart (s ++ rest) := by
  generalize hs : s.map PlacedToken.token = bare at h
  cases h with
  | cell h =>
    subst hs
    exact h.referenceStart hrest
  | range h =>
    obtain ⟨s, u, rfl, rfl, hu⟩ := List.map_eq_append_iff.1 hs
    obtain ⟨position, t, rfl, rfl⟩ := exists_of_map_token_eq_cons hu
    rw [List.append_assoc]
    exact h.referenceStart (by simp)

theorem CompleteOn.parentheses {n : Nat} (ih : CompleteOn scope n) {s rest : Tokens}
    {bare : List Token} {e : Expr}
    (hs : s.map PlacedToken.token = .openParen :: (bare ++ [.closeParen]))
    (h : Derives scope .comparison bare e) (hn : 10 * s.length ≤ n + 2) :
    parseOperand scope (n + 1) (s ++ rest) = .ok (e, rest) := by
  obtain ⟨position, s', rfl, hs'⟩ := exists_of_map_token_eq_cons hs
  obtain ⟨inner, last, rfl, rfl, hlast⟩ := List.map_eq_append_iff.1 hs'
  obtain ⟨closePosition, rfl⟩ := exists_of_map_token_eq_singleton hlast
  simp only [List.length_cons, List.length_append, List.length_nil] at hn
  have hread := ih.phrase _ _ _ _ h (.closeParen closePosition rest) (by omega)
  rw [List.cons_append, List.append_assoc]
  exact bind_eq_ok.2 ⟨_, hread, rfl⟩

theorem CompleteOn.call {n : Nat} (ih : CompleteOn scope n) {name : String} {f : Function}
    {s rest : Tokens} {bare : List Token} {es : List Expr}
    (hs : s.map PlacedToken.token = .identifier name :: .openParen :: (bare ++ [.closeParen]))
    (hname : Function.ofName? name = some f) (h : DerivesArguments scope bare es)
    (hn : 10 * s.length ≤ n + 2) :
    parseOperand scope (n + 1) (s ++ rest) = .ok (.call f es, rest) := by
  obtain ⟨position, _, rfl, hs'⟩ := exists_of_map_token_eq_cons hs
  obtain ⟨openPosition, _, rfl, hs''⟩ := exists_of_map_token_eq_cons hs'
  obtain ⟨inner, last, rfl, rfl, hlast⟩ := List.map_eq_append_iff.1 hs''
  obtain ⟨closePosition, rfl⟩ := exists_of_map_token_eq_singleton hlast
  simp only [List.length_cons, List.length_append, List.length_nil] at hn
  have hread := ih.arguments _ _ closePosition rest h (by omega)
  rw [List.cons_append, List.cons_append, List.append_assoc, parseOperand, hname]
  exact bind_eq_ok.2 ⟨_, hread, rfl⟩

theorem Phrase.EndsBefore.parseOperand_name {kind : Phrase} {rest : Tokens}
    (hrest : kind.EndsBefore rest) {name : String} (hname : isValidName name = true)
    (position n : Nat) :
    parseOperand scope (n + 1) (⟨.identifier name, position⟩ :: rest) =
      .ok (.name name, rest) := by
  cases hrest <;> simp [parseOperand, hname, Spreadsheet.endsName]

theorem Phrase.EndsBefore.parseOperand_reference {kind : Phrase} {s rest : Tokens}
    (hrest : kind.EndsBefore rest) {target : Reference}
    (h : DerivesReference scope (s.map PlacedToken.token) target) (n : Nat) :
    parseOperand scope (n + 1) (s ++ rest) = .ok (.reference target, rest) := by
  have hopen : ∀ openPosition rest', rest ≠ ⟨.openParen, openPosition⟩ :: rest' := by
    rintro openPosition rest' rfl
    cases hrest
  exact (h.referenceStart hopen).parseOperand (parseReference_complete h hrest.endsName) n

-- The recursion is on the derivation, whose kind has to be a variable for it.
theorem CompleteOn.succ_operand {n : Nat} (ih : CompleteOn scope n) {kind : Phrase}
    {s rest : Tokens} {bare : List Token} {e : Expr} (hk : kind = .operand)
    (hs : s.map PlacedToken.token = bare) (hrest : Phrase.operand.EndsBefore rest)
    (hn : 10 * s.length ≤ n + 2) :
    Derives scope kind bare e → parseOperand scope (n + 1) (s ++ rest) = .ok (e, rest)
  | .looser h => by
    have hk' : kind.tighter = .operand := by
      subst hk
      rfl
    exact ih.succ_operand hk' hs hrest hn h
  | .operator hop _ _ => by
    subst hk
    cases hop
  | .power .. | .sign .. => nomatch hk
  | .number x => by
    obtain ⟨position, rfl⟩ := exists_of_map_token_eq_singleton hs
    rfl
  | .text content => by
    obtain ⟨position, rfl⟩ := exists_of_map_token_eq_singleton hs
    rfl
  | .parentheses h => ih.parentheses hs h hn
  | .call hname h => ih.call hs hname h hn
  | .name hname => by
    obtain ⟨position, rfl⟩ := exists_of_map_token_eq_singleton hs
    exact hrest.parseOperand_name hname position n
  | .reference h => by
    subst hs
    exact hrest.parseOperand_reference h n

theorem DerivesMore.endsBefore {s rest : Tokens} {es : List Expr} {position : Nat}
    (h : DerivesMore scope (s.map PlacedToken.token) es) :
    Phrase.comparison.EndsBefore (s ++ ⟨.closeParen, position⟩ :: rest) := by
  generalize hs : s.map PlacedToken.token = bare at h
  cases h with
  | done =>
    obtain rfl := List.map_eq_nil_iff.1 hs
    exact .closeParen _ _
  | next =>
    obtain ⟨commaPosition, s', rfl, -⟩ := exists_of_map_token_eq_cons hs
    exact .comma _ _

theorem Derives.parseArguments {kind : Phrase} {s rest : Tokens} {e : Expr}
    (h : Derives scope kind (s.map PlacedToken.token) e) (n : Nat) :
    parseArguments scope (n + 1) (s ++ rest) = (do
      let (first, rest) ← parsePhrase scope n .comparison (s ++ rest)
      let (others, rest) ← parseMoreArguments scope n rest
      return (first :: others, rest)) := by
  obtain ⟨t, _, hs, ht⟩ := h.starts
  obtain ⟨position, s', rfl, -⟩ := exists_of_map_token_eq_cons hs
  cases t with
  | closeParen => cases ht
  | _ => rfl

theorem CompleteOn.succ_arguments {n : Nat} (ih : CompleteOn scope n) {s rest : Tokens}
    {es : List Expr} {position : Nat} (h : DerivesArguments scope (s.map PlacedToken.token) es)
    (hn : 10 * (s.length + 1) < n + 1) :
    parseArguments scope (n + 1) (s ++ ⟨.closeParen, position⟩ :: rest) =
      .ok (es, ⟨.closeParen, position⟩ :: rest) := by
  rcases h.cases_first with ⟨hs, rfl⟩ | ⟨s', t', e, others, hs, rfl, hfirst, hmore⟩
  · obtain rfl := List.map_eq_nil_iff.1 hs
    rfl
  · obtain ⟨first, more, rfl, rfl, rfl⟩ := List.map_eq_append_iff.1 hs
    have hpos := hfirst.length_pos
    simp only [List.length_append] at hn
    rw [List.append_assoc, hfirst.parseArguments]
    refine bind_eq_ok.2 ⟨(e, more ++ ⟨.closeParen, position⟩ :: rest), ?_, ?_⟩
    · exact ih.phrase _ _ _ _ hfirst hmore.endsBefore (by omega)
    · exact bind_eq_ok.2 ⟨_, ih.more _ _ _ _ hmore (by omega), rfl⟩

theorem CompleteOn.succ_more {n : Nat} (ih : CompleteOn scope n) {s rest : Tokens}
    {es : List Expr} {position : Nat} (h : DerivesMore scope (s.map PlacedToken.token) es)
    (hn : 10 * s.length < n + 1) :
    parseMoreArguments scope (n + 1) (s ++ ⟨.closeParen, position⟩ :: rest) =
      .ok (es, ⟨.closeParen, position⟩ :: rest) := by
  generalize hs : s.map PlacedToken.token = bare at h
  cases h with
  | done =>
    obtain rfl := List.map_eq_nil_iff.1 hs
    rfl
  | @next _ _ e _ hnext hmore =>
    obtain ⟨commaPosition, s', rfl, hs'⟩ := exists_of_map_token_eq_cons hs
    obtain ⟨next, more, rfl, rfl, rfl⟩ := List.map_eq_append_iff.1 hs'
    simp only [List.length_cons, List.length_append] at hn
    rw [List.cons_append, List.append_assoc]
    refine bind_eq_ok.2 ⟨(e, more ++ ⟨.closeParen, position⟩ :: rest), ?_, ?_⟩
    · exact ih.phrase _ _ _ _ hnext hmore.endsBefore (by omega)
    · exact bind_eq_ok.2 ⟨_, ih.more _ _ _ _ hmore (by omega), rfl⟩

/-- **Every phrase is read to its end.** -/
theorem completeOn (scope : Scope) : ∀ n, CompleteOn scope n
  | 0 => .zero
  | n + 1 =>
    have ih := completeOn scope n
    { phrase := fun _ _ _ _ => ih.succ_phrase
      chain := fun _ _ _ _ _ => ih.succ_chain
      power := fun _ _ _ => ih.succ_power
      signed := fun _ _ _ => ih.succ_signed
      operand := fun _ _ _ h hrest hn => ih.succ_operand rfl rfl hrest hn h
      arguments := fun _ _ _ _ => ih.succ_arguments
      more := fun _ _ _ _ => ih.succ_more }

/-! ## All tokens -/

theorem Derives.parseTokens {tokens : Tokens} {e : Expr}
    (h : Derives scope .comparison (tokens.map PlacedToken.token) e) :
    parseTokens scope tokens = .ok e := by
  have hread := (completeOn scope (callBound tokens)).phrase _ _ _ [] h .nothing (by
    simp only [callBound]
    omega)
  rw [List.append_nil] at hread
  have hpos := h.length_pos
  rw [Spreadsheet.parseTokens, if_neg (by cases tokens <;> simp_all)]
  exact bind_eq_ok.2 ⟨(e, []), hread, rfl⟩

/--
**The parser accepts exactly its grammar.** Tokens are read to a tree if and only if all of them
together derive it, and they derive no other.
-/
theorem parseTokens_iff_derives (scope : Scope) (tokens : Tokens) :
    (∀ e, parseTokens scope tokens = .ok e ↔
      Derives scope .comparison (tokens.map PlacedToken.token) e) ∧
    ∀ e e', Derives scope .comparison (tokens.map PlacedToken.token) e →
      Derives scope .comparison (tokens.map PlacedToken.token) e' → e = e' := by
  refine ⟨fun e => ⟨derives_of_parseTokens, Derives.parseTokens⟩, fun e e' h h' => ?_⟩
  have hread := h.parseTokens
  rw [h'.parseTokens] at hread
  exact (Except.ok.inj hread).symm

/-- The formula `=x<-x^y^x*y+x-y` has phrases of every kind. Its powers group to the right, and the
first is that of a signed name; its sums group to the left, and to the right they do not. -/
theorem parseTokens_iff_derives_levels :
    let scope : Scope := ⟨0, fun _ => none, 15⟩
    let tokens : Tokens :=
      [⟨.identifier "x", 1⟩, ⟨.operator .lt, 2⟩, ⟨.operator .sub, 3⟩, ⟨.identifier "x", 4⟩,
        ⟨.operator .pow, 5⟩, ⟨.identifier "y", 6⟩, ⟨.operator .pow, 7⟩, ⟨.identifier "x", 8⟩,
        ⟨.operator .mul, 9⟩, ⟨.identifier "y", 10⟩, ⟨.operator .add, 11⟩, ⟨.identifier "x", 12⟩,
        ⟨.operator .sub, 13⟩, ⟨.identifier "y", 14⟩]
    let x : Expr := .name "x"
    let y : Expr := .name "y"
    let product : Expr := .binary .mul (.binary .pow (.unary .neg x) (.binary .pow y x)) y
    parseTokens scope tokens =
        .ok (.binary .lt x (.binary .sub (.binary .add product x) y)) ∧
      ¬ Derives scope .comparison (tokens.map PlacedToken.token)
        (.binary .lt x (.binary .add product (.binary .sub x y))) := by
  intro scope tokens x y product
  have hx : Derives scope .operand [.identifier "x"] x := .name (by decide)
  have hy : Derives scope .operand [.identifier "y"] y := .name (by decide)
  have hlt : .lt ∈ Phrase.comparison.operators := by decide
  have hadd : .add ∈ Phrase.sum.operators := by decide
  have hsub : .sub ∈ Phrase.sum.operators := by decide
  have hmul : .mul ∈ Phrase.product.operators := by decide
  have hpower : Derives scope .power _ (.binary .pow (.unary .neg x) (.binary .pow y x)) :=
    .power (.sign (.looser hx)) (.power (.looser hy) (.looser (.looser hx)))
  have hproduct : Derives scope .product _ product :=
    .operator hmul (.looser hpower) (.looser (.looser hy))
  have hfirst : Derives scope .sum _ (.binary .add product x) :=
    .operator hadd (.looser hproduct) (.looser (.looser (.looser hx)))
  have hsum : Derives scope .sum _ (.binary .sub (.binary .add product x) y) :=
    .operator hsub hfirst (.looser (.looser (.looser hy)))
  have hd : Derives scope .comparison (tokens.map PlacedToken.token)
      (.binary .lt x (.binary .sub (.binary .add product x) y)) :=
    .operator hlt (.looser (.looser (.looser (.looser (.looser hx))))) hsum
  refine ⟨((parseTokens_iff_derives scope tokens).1 _).2 hd, fun h => ?_⟩
  have heq := (parseTokens_iff_derives scope tokens).2 _ _ h hd
  cases heq

end Spreadsheet
