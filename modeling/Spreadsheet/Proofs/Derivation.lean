/-
The grammar of formulas by its first tokens. The rules group operators from
the right end of a phrase; read from the left a phrase is one that is
tighter, and then operators with a tighter phrase each (`Derives.chain`,
`DerivesChain.derives`). The arguments of a call are taken apart in the same
way (`DerivesArguments.cases_first`). A phrase has a first token, which is no
closing parenthesis (`Derives.starts`).
-/
import Spreadsheet.Formula.Grammar

namespace Spreadsheet

variable {scope : Scope}

/-! ## Chains of operators -/

/-- Tokens that are operators of a kind with their right operands, and the trees before and after
them. -/
inductive DerivesChain (scope : Scope) (kind : Phrase) : Expr → List Token → Expr → Prop where
  | done (a : Expr) : DerivesChain scope kind a [] a
  | next {op : BinaryOp} {s t : List Token} {a b e : Expr} :
    op ∈ kind.operators → Derives scope kind.tighter s b →
    DerivesChain scope kind (.binary op a b) t e →
    DerivesChain scope kind a (.operator op :: s ++ t) e

theorem DerivesChain.snoc {kind : Phrase} {op : BinaryOp} {s t : List Token} {a b e : Expr}
    (h : DerivesChain scope kind a s b) (hop : op ∈ kind.operators)
    (ht : Derives scope kind.tighter t e) :
    DerivesChain scope kind a (s ++ .operator op :: t) (.binary op b e) := by
  induction h with
  | done a => simpa using DerivesChain.next hop ht (.done _)
  | next hop' hs _ ih => simpa using DerivesChain.next hop' hs ih

/-- A chain after a phrase of its kind makes a longer phrase. -/
theorem DerivesChain.derives {kind : Phrase} {s t : List Token} {a e : Expr}
    (h : DerivesChain scope kind a t e) (hs : Derives scope kind s a) :
    Derives scope kind (s ++ t) e := by
  induction h generalizing s with
  | done a => simpa using hs
  | next hop ht _ ih => simpa using ih (.operator hop hs ht)

/-- **From the left, a phrase is a tighter one with a chain after it.** -/
theorem Derives.chain {kind : Phrase} {s : List Token} {e : Expr} (hk : kind.operators ≠ []) :
    Derives scope kind s e → ∃ s' t a, s = s' ++ t ∧ Derives scope kind.tighter s' a ∧
      DerivesChain scope kind a t e
  | .looser h => ⟨s, [], e, (List.append_nil s).symm, h, .done e⟩
  | .operator hop h ht => by
    obtain ⟨s', u, a, rfl, hs', hu⟩ := h.chain hk
    exact ⟨s', _, a, List.append_assoc s' u _, hs', hu.snoc hop ht⟩
  | .power .. | .sign .. | .number .. | .text .. | .parentheses .. | .call .. | .name ..
  | .reference .. => absurd rfl hk

/-! ## Arguments -/

/-- Tokens that are arguments, each with a comma before it. -/
inductive DerivesMore (scope : Scope) : List Token → List Expr → Prop where
  | done : DerivesMore scope [] []
  | next {s t : List Token} {e : Expr} {rest : List Expr} :
    Derives scope .comparison s e → DerivesMore scope t rest →
    DerivesMore scope (.comma :: s ++ t) (e :: rest)

theorem DerivesMore.derives {s t : List Token} {e : Expr} {rest : List Expr}
    (h : DerivesMore scope t rest) (hs : Derives scope .comparison s e) :
    DerivesArguments scope (s ++ t) (e :: rest) := by
  induction h generalizing s e with
  | done => simpa using DerivesArguments.last hs
  | next ht _ ih => exact .more hs (ih ht)

theorem DerivesArguments.cases_first {s : List Token} {arguments : List Expr} :
    DerivesArguments scope s arguments → s = [] ∧ arguments = [] ∨
      ∃ s' t e rest, s = s' ++ t ∧ arguments = e :: rest ∧ Derives scope .comparison s' e ∧
        DerivesMore scope t rest
  | .none => .inl ⟨rfl, rfl⟩
  | .last h => .inr ⟨_, [], _, [], (List.append_nil _).symm, rfl, h, .done⟩
  | .more h ht => by
    obtain ⟨-, hnil⟩ | ⟨s', u, e, rest, rfl, he, hs', hu⟩ := ht.cases_first
    · cases hnil
    · cases he
      exact .inr ⟨_, _, _, _, rfl, rfl, h, .next hs' hu⟩

/-! ## First tokens -/

/-- Whether a token can be the first of a phrase of a kind. -/
def Phrase.mayStart (kind : Phrase) : Token → Bool
  | .number _ | .text _ | .identifier _ | .quotedName _ | .openParen => true
  | .operator op => (op == .add || op == .sub) && kind != .operand
  | .closeParen | .comma | .colon | .bang => false

theorem DerivesCell.starts {s : List Token} {a : CellAddress} (h : DerivesCell scope s a) :
    ∃ t s', s = t :: s' ∧ Phrase.operand.mayStart t = true := by
  cases h with
  | bare => exact ⟨_, _, rfl, rfl⟩
  | onSheet hs =>
    rcases hs with rfl | rfl
    · exact ⟨_, _, rfl, rfl⟩
    · exact ⟨_, _, rfl, rfl⟩

theorem DerivesReference.starts {s : List Token} {target : Reference}
    (h : DerivesReference scope s target) :
    ∃ t s', s = t :: s' ∧ Phrase.operand.mayStart t = true := by
  cases h with
  | cell h => exact h.starts
  | range h _ _ =>
    obtain ⟨t, s', rfl, ht⟩ := h.starts
    exact ⟨t, _, rfl, ht⟩

theorem Phrase.mayStart_of_tighter {kind : Phrase} {t : Token}
    (h : kind.tighter.mayStart t = true) : kind.mayStart t = true := by
  cases t with
  | operator op => cases kind <;> simp_all [mayStart, tighter]
  | _ => exact h

theorem Derives.starts {kind : Phrase} {s : List Token} {e : Expr} :
    Derives scope kind s e → ∃ t s', s = t :: s' ∧ kind.mayStart t = true
  | .looser h => by
    obtain ⟨t, s', rfl, ht⟩ := h.starts
    exact ⟨t, s', rfl, Phrase.mayStart_of_tighter ht⟩
  | .operator _ h _ | .power h _ => by
    obtain ⟨t, s', rfl, ht⟩ := h.starts
    exact ⟨t, _, rfl, ht⟩
  | @Derives.sign _ op _ _ _ => ⟨_, _, rfl, by cases op <;> rfl⟩
  | .number _ | .text _ | .parentheses _ | .call _ _ | .name _ => ⟨_, _, rfl, rfl⟩
  | .reference h => h.starts

end Spreadsheet
