/-
What the parser reads is a phrase. A reading that succeeds takes tokens off
the front that derive the tree it returns (`soundOn`), by one induction over
the number of nested calls for all the functions of the parser.
-/
import Spreadsheet.Proofs.Derivation
import Spreadsheet.Proofs.Reading

namespace Spreadsheet

variable {scope : Scope}

/-! ## Single tokens -/

theorem leadingOp?_eq_some {ops : List BinaryOp} {tokens rest : Tokens} {op : BinaryOp} :
    leadingOp? ops tokens = some (op, rest) ↔
      op ∈ ops ∧ ∃ position, tokens = ⟨.operator op, position⟩ :: rest := by
  unfold leadingOp?
  split
  · split <;> aesop
  · rename_i hno
    simp only [reduceCtorEq, false_iff, not_and, not_exists]
    rintro - position rfl
    exact hno _ _ _ rfl

theorem leadingSign?_eq_some {tokens rest : Tokens} {op : UnaryOp} :
    leadingSign? tokens = some (op, rest) ↔
      ∃ position, tokens = ⟨.operator op.symbol, position⟩ :: rest := by
  unfold leadingSign?
  split
  · cases op <;> simp [UnaryOp.symbol]
  · cases op <;> simp [UnaryOp.symbol]
  · rename_i hneg hplus
    simp only [reduceCtorEq, false_iff, not_exists]
    rintro position rfl
    cases op with
    | neg => exact hneg _ _ rfl
    | plus => exact hplus _ _ rfl

theorem closeParen_eq_ok {openPosition : Nat} {tokens rest : Tokens} :
    closeParen openPosition tokens = .ok rest ↔
      ∃ position, tokens = ⟨.closeParen, position⟩ :: rest := by
  unfold closeParen
  split <;> simp_all

theorem CellPart.address_eq_ok {part : CellPart} {a : CellAddress} :
    part.address = .ok a ↔
      ∃ row col, parseLabel part.label = some (row, col) ∧ a = ⟨part.sheet, row, col⟩ := by
  unfold address
  cases parseLabel part.label with
  | none => simp
  | some p => simp [Prod.ext_iff, eq_comm]

theorem parseSheetPart_eq_ok {name : String} {position : Nat} {tokens rest : Tokens}
    {part : CellPart} : parseSheetPart scope name position tokens = .ok (part, rest) ↔
      ∃ sheet label place, scope.sheetNamed name = some sheet ∧
        tokens = ⟨.identifier label, place⟩ :: rest ∧
        part = ⟨sheet, some name, label, position⟩ := by
  unfold parseSheetPart
  cases scope.sheetNamed name with
  | none => simp
  | some sheet =>
    simp only [Option.some.injEq, exists_and_left, exists_eq_left']
    split <;> aesop

/-! ## What is read is a phrase -/

/-- The tokens before the rest, without their places, have a property. -/
def ReadOff (tokens rest : Tokens) (P : List Token → Prop) : Prop :=
  ∃ s, tokens = s ++ rest ∧ P (s.map PlacedToken.token)

section ReadOff

variable {tokens middle rest : Tokens} {P Q : List Token → Prop}

theorem ReadOff.none (h : P []) : ReadOff rest rest P := ⟨[], rfl, h⟩

theorem ReadOff.one {t : PlacedToken} (h : P [t.token]) : ReadOff (t :: rest) rest P :=
  ⟨[t], rfl, h⟩

theorem ReadOff.imp (h : ReadOff tokens rest P) (hPQ : ∀ s, P s → Q s) : ReadOff tokens rest Q := by
  obtain ⟨s, hs, hP⟩ := h
  exact ⟨s, hs, hPQ _ hP⟩

theorem ReadOff.cons {t : PlacedToken} (h : ReadOff tokens rest P) :
    ReadOff (t :: tokens) rest fun u => ∃ s, u = t.token :: s ∧ P s := by
  obtain ⟨s, rfl, hP⟩ := h
  exact ⟨t :: s, rfl, _, rfl, hP⟩

theorem ReadOff.append (h : ReadOff tokens middle P) (h' : ReadOff middle rest Q) :
    ReadOff tokens rest fun u => ∃ s t, u = s ++ t ∧ P s ∧ Q t := by
  obtain ⟨s, rfl, hP⟩ := h
  obtain ⟨t, rfl, hQ⟩ := h'
  exact ⟨s ++ t, (List.append_assoc s t rest).symm, _, _, List.map_append, hP, hQ⟩

end ReadOff

theorem parseCellPart_sound {tokens rest : Tokens} {part : CellPart} {a : CellAddress}
    (h : parseCellPart scope tokens = .ok (part, rest)) (ha : part.address = .ok a) :
    ReadOff tokens rest (DerivesCell scope · a) := by
  obtain ⟨row, col, hlabel, rfl⟩ := CellPart.address_eq_ok.1 ha
  unfold parseCellPart at h
  split at h
  · obtain ⟨sheet, label, place, hsheet, rfl, rfl⟩ := parseSheetPart_eq_ok.1 h
    exact ⟨[_, _, _], rfl, .onSheet (.inl rfl) hsheet hlabel⟩
  · simp only [Except.ok.injEq, Prod.mk.injEq] at h
    obtain ⟨rfl, rfl⟩ := h
    exact .one (.bare hlabel)
  · obtain ⟨sheet, label, place, hsheet, rfl, rfl⟩ := parseSheetPart_eq_ok.1 h
    exact ⟨[_, _, _], rfl, .onSheet (.inr rfl) hsheet hlabel⟩
  · cases h
  · cases h

theorem rangeBetween_eq_ok {first last : CellPart} {a : CellAddress} {target : Reference}
    (h : rangeBetween first a last = .ok target) : ∃ b, last.address = .ok b ∧
      b.sheet = first.sheet ∧ target = .range (.ofCorners first.sheet a.row a.col b.row b.col) := by
  unfold rangeBetween at h
  split at h
  · rename_i hsheet
    obtain ⟨b, hb, rfl⟩ := map_eq_ok.1 h
    obtain ⟨row, col, -, rfl⟩ := CellPart.address_eq_ok.1 hb
    exact ⟨_, hb, hsheet, rfl⟩
  · cases h

theorem parseReference_sound {tokens rest : Tokens} {target : Reference}
    (h : parseReference scope tokens = .ok (target, rest)) :
    ReadOff tokens rest (DerivesReference scope · target) := by
  simp only [parseReference, bind_eq_ok, Prod.exists] at h
  obtain ⟨first, middle, hfirst, a, ha, h⟩ := h
  have hs := parseCellPart_sound hfirst ha
  obtain ⟨row, col, -, rfl⟩ := CellPart.address_eq_ok.1 ha
  split at h
  · simp only [bind_eq_ok, Prod.exists, pure, Except.pure, Except.ok.injEq, Prod.mk.injEq] at h
    obtain ⟨last, rest', hlast, reference, hreference, rfl, rfl⟩ := h
    obtain ⟨b, hb, hsheet, rfl⟩ := rangeBetween_eq_ok hreference
    have ht := parseCellPart_sound hlast hb
    exact (hs.append ht.cons).imp fun _ ⟨_, _, hu, hs, _, ht', ht⟩ => by
      subst hu ht'
      exact .range hs ht hsheet
  · simp only [pure, Except.pure, Except.ok.injEq, Prod.mk.injEq] at h
    obtain ⟨rfl, rfl⟩ := h
    exact hs.imp fun _ => .cell

/-- What is read with a number of nested calls is a phrase with the tree that is returned. -/
structure SoundOn (scope : Scope) (n : Nat) : Prop where
  phrase : ∀ kind tokens e rest, parsePhrase scope n kind tokens = .ok (e, rest) →
    ReadOff tokens rest (Derives scope kind · e)
  chain : ∀ kind left tokens e rest, parseChain scope n kind left tokens = .ok (e, rest) →
    ReadOff tokens rest (DerivesChain scope kind left · e)
  power : ∀ tokens e rest, parsePower scope n tokens = .ok (e, rest) →
    ReadOff tokens rest (Derives scope .power · e)
  signed : ∀ tokens e rest, parseSigned scope n tokens = .ok (e, rest) →
    ReadOff tokens rest (Derives scope .signed · e)
  operand : ∀ tokens e rest, parseOperand scope n tokens = .ok (e, rest) →
    ReadOff tokens rest (Derives scope .operand · e)
  arguments : ∀ tokens es rest, parseArguments scope n tokens = .ok (es, rest) →
    ReadOff tokens rest (DerivesArguments scope · es)
  more : ∀ tokens es rest, parseMoreArguments scope n tokens = .ok (es, rest) →
    ReadOff tokens rest (DerivesMore scope · es)

theorem SoundOn.zero : SoundOn scope 0 := by
  refine ⟨?_, ?_, ?_, ?_, ?_, ?_, ?_⟩ <;> intros <;>
    simp_all [parsePhrase, parseChain, parsePower, parseSigned, parseOperand, parseArguments,
      parseMoreArguments]

theorem SoundOn.succ_phrase {n : Nat} (ih : SoundOn scope n) {kind : Phrase} {tokens rest : Tokens}
    {e : Expr} (h : parsePhrase scope (n + 1) kind tokens = .ok (e, rest)) :
    ReadOff tokens rest (Derives scope kind · e) := by
  cases kind with
  | operand => exact ih.operand _ _ _ h
  | signed => exact ih.signed _ _ _ h
  | power => exact ih.power _ _ _ h
  | comparison | sum | product =>
    simp only [parsePhrase, bind_eq_ok, Prod.exists] at h
    obtain ⟨left, middle, hleft, h⟩ := h
    have hs := ih.phrase _ _ _ _ hleft
    have ht := ih.chain _ _ _ _ _ h
    exact (hs.append ht).imp fun _ ⟨_, _, hu, hs, ht⟩ => hu ▸ ht.derives (.looser hs)

theorem SoundOn.succ_chain {n : Nat} (ih : SoundOn scope n) {kind : Phrase} {left : Expr}
    {tokens rest : Tokens} {e : Expr}
    (h : parseChain scope (n + 1) kind left tokens = .ok (e, rest)) :
    ReadOff tokens rest (DerivesChain scope kind left · e) := by
  simp only [parseChain] at h
  split at h
  · simp only [Except.ok.injEq, Prod.mk.injEq] at h
    obtain ⟨rfl, rfl⟩ := h
    exact .none (.done left)
  · rename_i op _ hlead
    obtain ⟨hop, position, rfl⟩ := leadingOp?_eq_some.1 hlead
    simp only [bind_eq_ok, Prod.exists] at h
    obtain ⟨right, middle, hright, h⟩ := h
    have hs := ih.phrase _ _ _ _ hright
    have ht := ih.chain _ _ _ _ _ h
    exact (hs.cons.append ht).imp fun _ ⟨_, _, hu, ⟨_, hs', hs⟩, ht⟩ => by
      subst hu hs'
      exact .next hop hs ht

theorem SoundOn.succ_power {n : Nat} (ih : SoundOn scope n) {tokens rest : Tokens} {e : Expr}
    (h : parsePower scope (n + 1) tokens = .ok (e, rest)) :
    ReadOff tokens rest (Derives scope .power · e) := by
  simp only [parsePower, bind_eq_ok, Prod.exists] at h
  obtain ⟨base, middle, hbase, h⟩ := h
  have hs := ih.phrase _ _ _ _ hbase
  split at h
  · simp only [pure, Except.pure, Except.ok.injEq, Prod.mk.injEq] at h
    obtain ⟨rfl, rfl⟩ := h
    exact hs.imp fun _ hs => .looser hs
  · rename_i hlead
    obtain ⟨hop, position, rfl⟩ := leadingOp?_eq_some.1 hlead
    obtain rfl := List.mem_singleton.1 hop
    simp only [bind_eq_ok, Prod.exists, pure, Except.pure, Except.ok.injEq, Prod.mk.injEq] at h
    obtain ⟨exponent, rest', hexponent, rfl, rfl⟩ := h
    have ht := ih.phrase _ _ _ _ hexponent
    exact (hs.append ht.cons).imp fun _ ⟨_, _, hu, hs, _, ht', ht⟩ => by
      subst hu ht'
      exact .power hs ht

theorem SoundOn.succ_signed {n : Nat} (ih : SoundOn scope n) {tokens rest : Tokens} {e : Expr}
    (h : parseSigned scope (n + 1) tokens = .ok (e, rest)) :
    ReadOff tokens rest (Derives scope .signed · e) := by
  simp only [parseSigned] at h
  split at h
  · rename_i hop
    obtain ⟨position, rfl⟩ := leadingSign?_eq_some.1 hop
    simp only [bind_eq_ok, Prod.exists, pure, Except.pure, Except.ok.injEq, Prod.mk.injEq] at h
    obtain ⟨operand, rest', hoperand, rfl, rfl⟩ := h
    exact (ih.phrase _ _ _ _ hoperand).cons.imp fun _ ⟨_, hu, hs⟩ => hu ▸ .sign hs
  · exact (ih.phrase _ _ _ _ h).imp fun _ hs => .looser hs

theorem SoundOn.succ_operand {n : Nat} (ih : SoundOn scope n) {tokens rest : Tokens} {e : Expr}
    (h : parseOperand scope (n + 1) tokens = .ok (e, rest)) :
    ReadOff tokens rest (Derives scope .operand · e) := by
  simp only [parseOperand] at h
  split at h
  · simp only [Except.ok.injEq, Prod.mk.injEq] at h
    obtain ⟨rfl, rfl⟩ := h
    exact .one (.number _)
  · simp only [Except.ok.injEq, Prod.mk.injEq] at h
    obtain ⟨rfl, rfl⟩ := h
    exact .one (.text _)
  · -- parentheses
    simp only [bind_eq_ok, Prod.exists, closeParen_eq_ok, pure, Except.pure, Except.ok.injEq,
      Prod.mk.injEq] at h
    obtain ⟨inner, middle, hinner, rest', ⟨position, rfl⟩, rfl, rfl⟩ := h
    have hs := ih.phrase _ _ _ _ hinner
    exact (hs.cons.append (.one rfl)).imp fun _ ⟨_, _, hu, ⟨_, hs', hs⟩, hclose⟩ => by
      subst hu hs' hclose
      exact .parentheses hs
  · -- a call
    split at h
    · cases h
    · rename_i hname
      simp only [bind_eq_ok, Prod.exists, closeParen_eq_ok, pure, Except.pure, Except.ok.injEq,
        Prod.mk.injEq] at h
      obtain ⟨arguments, middle, harguments, rest', ⟨position, rfl⟩, rfl, rfl⟩ := h
      have hs := ih.arguments _ _ _ harguments
      exact (hs.cons.cons.append (.one rfl)).imp
        fun _ ⟨_, _, hu, ⟨_, hs', _, hs'', hs⟩, hclose⟩ => by
          subst hu hs' hs'' hclose
          exact .call hname hs
  · -- a name, or a reference that starts with an identifier
    split at h
    · rename_i hname
      simp only [Except.ok.injEq, Prod.mk.injEq] at h
      obtain ⟨rfl, rfl⟩ := h
      exact .one (.name (Bool.and_eq_true_iff.1 hname).1)
    · simp only [bind_eq_ok, Prod.exists, pure, Except.pure, Except.ok.injEq, Prod.mk.injEq] at h
      obtain ⟨target, rest', htarget, rfl, rfl⟩ := h
      exact (parseReference_sound htarget).imp fun _ => .reference
  · simp only [bind_eq_ok, Prod.exists, pure, Except.pure, Except.ok.injEq, Prod.mk.injEq] at h
    obtain ⟨target, rest', htarget, rfl, rfl⟩ := h
    exact (parseReference_sound htarget).imp fun _ => .reference
  · cases h

theorem SoundOn.succ_arguments {n : Nat} (ih : SoundOn scope n) {tokens rest : Tokens}
    {es : List Expr} (h : parseArguments scope (n + 1) tokens = .ok (es, rest)) :
    ReadOff tokens rest (DerivesArguments scope · es) := by
  simp only [parseArguments] at h
  split at h
  · simp only [Except.ok.injEq, Prod.mk.injEq] at h
    obtain ⟨rfl, rfl⟩ := h
    exact .none .none
  · simp only [bind_eq_ok, Prod.exists, pure, Except.pure, Except.ok.injEq, Prod.mk.injEq] at h
    obtain ⟨first, middle, hfirst, others, rest', hothers, rfl, rfl⟩ := h
    have hs := ih.phrase _ _ _ _ hfirst
    have ht := ih.more _ _ _ hothers
    exact (hs.append ht).imp fun _ ⟨_, _, hu, hs, ht⟩ => hu ▸ ht.derives hs

theorem SoundOn.succ_more {n : Nat} (ih : SoundOn scope n) {tokens rest : Tokens} {es : List Expr}
    (h : parseMoreArguments scope (n + 1) tokens = .ok (es, rest)) :
    ReadOff tokens rest (DerivesMore scope · es) := by
  simp only [parseMoreArguments] at h
  split at h
  · simp only [bind_eq_ok, Prod.exists, pure, Except.pure, Except.ok.injEq, Prod.mk.injEq] at h
    obtain ⟨next, middle, hnext, others, rest', hothers, rfl, rfl⟩ := h
    have hs := ih.phrase _ _ _ _ hnext
    have ht := ih.more _ _ _ hothers
    exact (hs.cons.append ht).imp fun _ ⟨_, _, hu, ⟨_, hs', hs⟩, ht⟩ => by
      subst hu hs'
      exact .next hs ht
  · simp only [Except.ok.injEq, Prod.mk.injEq] at h
    obtain ⟨rfl, rfl⟩ := h
    exact .none .done

/-- **What is read is a phrase with the tree that is returned.** -/
theorem soundOn (scope : Scope) : ∀ n, SoundOn scope n
  | 0 => .zero
  | n + 1 =>
    have ih := soundOn scope n
    { phrase := fun _ _ _ _ => ih.succ_phrase
      chain := fun _ _ _ _ _ => ih.succ_chain
      power := fun _ _ _ => ih.succ_power
      signed := fun _ _ _ => ih.succ_signed
      operand := fun _ _ _ => ih.succ_operand
      arguments := fun _ _ _ => ih.succ_arguments
      more := fun _ _ _ => ih.succ_more }

theorem derives_of_parseTokens {tokens : Tokens} {e : Expr}
    (h : parseTokens scope tokens = .ok e) :
    Derives scope .comparison (tokens.map PlacedToken.token) e := by
  unfold parseTokens at h
  split at h
  · cases h
  · obtain ⟨⟨tree, rest⟩, hread, hrest⟩ := bind_eq_ok.1 h
    obtain ⟨s, rfl, hs⟩ := (soundOn scope _).phrase _ _ _ _ hread
    cases rest with
    | nil =>
      cases hrest
      rwa [List.append_nil]
    | cons t rest =>
      obtain ⟨token, position⟩ := t
      cases token <;> cases hrest

end Spreadsheet
