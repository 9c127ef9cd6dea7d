/-
The tokens of a phrase need no blanks between them. Each of them ends where
the next one starts (`Derives.spaced`): after a word comes a mark, and after
an operator the start of a phrase. So they can be written one directly after
the other (`exists_spelled`).
-/
import Spreadsheet.Formula.Printer
import Spreadsheet.Proofs.Derivation
import Spreadsheet.Proofs.Tokens

namespace Spreadsheet

/-! ## Neighbours -/

/-- Whether a token is a word: anything but an operator, a parenthesis or a punctuation mark. -/
def Token.isWord : Token → Bool
  | .number _ | .text _ | .identifier _ | .quotedName _ => true
  | .operator _ | .openParen | .closeParen | .comma | .colon | .bang => false

/-- Whether a token ends where another starts. -/
def Token.standsBefore : Token → Token → Bool
  | .operator _, next => Phrase.comparison.mayStart next
  | .openParen, _ | .closeParen, _ | .comma, _ | .colon, _ | .bang, _ => true
  | .number _, next | .text _, next | .identifier _, next | .quotedName _, next => !next.isWord

/-- Whether a token can be the last of a phrase. -/
def Token.mayEnd : Token → Bool
  | .operator _ | .openParen | .comma | .colon | .bang => false
  | .number _ | .text _ | .identifier _ | .quotedName _ | .closeParen => true

/-- Tokens that stand next to each other as the tokens of a phrase do. -/
structure Spaced (s : List Token) : Prop where
  chain : s.IsChain fun t next => t.standsBefore next = true
  first : ∃ t, s.head? = some t ∧ Phrase.comparison.mayStart t = true
  last : ∃ t, s.getLast? = some t ∧ t.mayEnd = true

theorem Token.standsBefore_of_mayEnd {t next : Token} (h : t.mayEnd = true)
    (hnext : next.isWord = false) : t.standsBefore next = true := by
  cases t <;> simp_all [mayEnd, standsBefore]

section Spaced

variable {s t : List Token}

theorem Spaced.word {w : Token} (h : w.isWord = true) : Spaced [w] where
  chain := List.isChain_singleton w
  first := ⟨w, rfl, by cases w <;> first | rfl | cases h⟩
  last := ⟨w, rfl, by cases w <;> first | rfl | cases h⟩

theorem Spaced.join (hs : Spaced s) (ht : Spaced t) {mark : Token} (hmark : mark.isWord = false) :
    Spaced (s ++ mark :: t) := by
  obtain ⟨first, hfirst, hstart⟩ := hs.first
  obtain ⟨last, hlast, hend⟩ := hs.last
  obtain ⟨first', hfirst', hstart'⟩ := ht.first
  obtain ⟨last', hlast', hend'⟩ := ht.last
  have hbefore : mark.standsBefore first' = true := by
    cases mark with
    | operator op => exact hstart'
    | openParen | closeParen | comma | colon | bang => rfl
    | _ => cases hmark
  refine ⟨List.isChain_append.2 ⟨hs.chain, List.isChain_cons.2 ⟨?_, ht.chain⟩, ?_⟩,
    ⟨first, by simp [hfirst], hstart⟩, ⟨last', by simp [List.getLast?_cons, hlast'], hend'⟩⟩
  · intro next hnext
    rw [hfirst'] at hnext
    cases hnext
    exact hbefore
  · intro x hx y hy
    rw [hlast] at hx
    cases hx
    cases hy
    exact Token.standsBefore_of_mayEnd hend hmark

theorem Spaced.sign (hs : Spaced s) (op : UnaryOp) : Spaced (.operator op.symbol :: s) := by
  obtain ⟨first, hfirst, hstart⟩ := hs.first
  obtain ⟨last, hlast, hend⟩ := hs.last
  refine ⟨List.isChain_cons.2 ⟨?_, hs.chain⟩, ⟨_, rfl, by cases op <;> rfl⟩,
    ⟨last, by simp [List.getLast?_cons, hlast], hend⟩⟩
  intro next hnext
  rw [hfirst] at hnext
  cases hnext
  exact hstart

theorem Spaced.parentheses (hs : s = [] ∨ Spaced s) : Spaced (.openParen :: s ++ [.closeParen]) := by
  refine ⟨List.isChain_append.2 ⟨List.isChain_cons.2 ⟨fun _ _ => rfl, ?_⟩,
    List.isChain_singleton _, ?_⟩, ⟨.openParen, rfl, rfl⟩, ⟨.closeParen, List.getLast?_concat, rfl⟩⟩
  · rcases hs with rfl | hs
    · exact List.isChain_nil
    · exact hs.chain
  · intro x hx y hy
    cases hy
    rcases hs with rfl | hs
    · cases hx
      rfl
    · obtain ⟨last, hlast, hend⟩ := hs.last
      rw [List.getLast?_cons, hlast] at hx
      cases hx
      exact Token.standsBefore_of_mayEnd hend rfl

theorem Spaced.call (hs : s = [] ∨ Spaced s) (name : String) :
    Spaced (.identifier name :: .openParen :: s ++ [.closeParen]) := by
  have h := Spaced.parentheses hs
  refine ⟨List.isChain_cons.2 ⟨?_, h.chain⟩, ⟨_, rfl, rfl⟩, ⟨.closeParen, ?_, rfl⟩⟩
  · intro next hnext
    cases hnext
    rfl
  · exact List.getLast?_concat (l := .identifier name :: .openParen :: s)

end Spaced

/-! ## Phrases -/

variable {scope : Scope}

theorem DerivesCell.spaced {s : List Token} {a : CellAddress} (h : DerivesCell scope s a) :
    Spaced s := by
  cases h with
  | bare => exact .word rfl
  | onSheet hs =>
    refine Spaced.join (s := [_]) (.word ?_) (.word rfl) rfl
    rcases hs with rfl | rfl <;> rfl

theorem DerivesReference.spaced {s : List Token} {target : Reference}
    (h : DerivesReference scope s target) : Spaced s := by
  cases h with
  | cell h => exact h.spaced
  | range h h' _ => exact h.spaced.join h'.spaced rfl

mutual

/-- **The tokens of a phrase need no blanks between them.** -/
theorem Derives.spaced {kind : Phrase} {s : List Token} {e : Expr} :
    Derives scope kind s e → Spaced s
  | .looser h => h.spaced
  | .operator _ h h' | .power h h' => h.spaced.join h'.spaced rfl
  | .sign h => h.spaced.sign _
  | .number _ | .text _ | .name _ => .word rfl
  | .parentheses h => .parentheses (.inr h.spaced)
  | .call _ h => .call (h.spaced.imp And.left id) _
  | .reference h => h.spaced

theorem DerivesArguments.spaced {s : List Token} {es : List Expr} :
    DerivesArguments scope s es → s = [] ∧ es = [] ∨ Spaced s
  | .none => .inl ⟨rfl, rfl⟩
  | .last h => .inr h.spaced
  | .more h h' => .inr (h.spaced.join (h'.spaced.resolve_left fun hnil => nomatch hnil.2) rfl)

end

/-! ## Texts without blanks -/

theorem Token.mayContinue_of_mark {t next : Token} {c : Char} {s : List Char}
    (ht : t.isWord = true) (hnext : next.isWord = false) (hs : next.WrittenAs (c :: s)) :
    t.mayContinue c = false := by
  have hc : c ∈ ['+', '-', '*', '/', '^', '=', '<', '>', '(', ')', ',', ':', '!'] := by
    generalize hw : c :: s = written at hs
    cases hs with
    | number | text | quotedName | identifier => cases hnext
    | operator op => cases op <;> cases hw <;> decide
    | openParen | closeParen | comma | colon | bang =>
      cases hw
      decide
  cases t with
  | number | text | quotedName | identifier => fin_cases hc <;> rfl
  | operator | openParen | closeParen | comma | colon | bang => cases ht

theorem Token.mayContinue_of_mayStart {op : BinaryOp} {next : Token} {c : Char} {s : List Char}
    (hnext : Phrase.comparison.mayStart next = true) (hs : next.WrittenAs (c :: s)) :
    (Token.operator op).mayContinue c = false := by
  have hc : c ≠ '=' ∧ c ≠ '>' := by
    generalize hw : c :: s = written at hs
    cases hs with
    | number hliteral =>
      subst hw
      have hstart : isNumberStart c = true := by simpa using hliteral.1
      constructor <;> rintro rfl <;> cases hstart
    | identifier hstart _ =>
      cases hw
      constructor <;> rintro rfl <;> cases hstart
    | operator op' => cases op' <;> cases hw <;> first | decide | cases hnext
    | text | quotedName | openParen =>
      cases hw
      decide
    | closeParen | comma | colon | bang => cases hnext
  cases op with
  | lt | gt => simp [mayContinue, hc]
  | _ => rfl

/-- What a token starts with does not continue the token before it. -/
theorem Token.mayContinue_of_standsBefore {t next : Token} {c : Char} {s : List Char}
    (h : t.standsBefore next = true) (hs : next.WrittenAs (c :: s)) : t.mayContinue c = false := by
  cases t with
  | number | text | quotedName | identifier =>
    exact mayContinue_of_mark rfl (Bool.not_eq_true' _ ▸ h) hs
  | operator op => exact mayContinue_of_mayStart h hs
  | openParen | closeParen | comma | colon | bang => rfl

theorem Token.WrittenAs.endsBefore {t next : Token} {s rest : List Char}
    (hs : next.WrittenAs s) (h : t.standsBefore next = true) : t.EndsBefore (s ++ rest) := by
  obtain ⟨c, s, rfl, -⟩ := hs.exists_cons
  intro d hd
  cases hd
  exact mayContinue_of_standsBefore h hs

theorem Spaced.endsBefore {literal : Float → List Char} {s : List Token} (hs : Spaced s)
    (hwritten : ∀ t ∈ s, t.WrittenAs (t.written literal)) (op : BinaryOp) :
    (Token.operator op).EndsBefore (s.flatMap (Token.written literal)) := by
  obtain ⟨t, hfirst, hstart⟩ := hs.first
  obtain ⟨s, rfl⟩ := List.head?_eq_some_iff.1 hfirst
  rw [List.flatMap_cons]
  exact (hwritten t List.mem_cons_self).endsBefore hstart

/-- Tokens of which each ends where the next starts can be written without blanks. -/
theorem exists_spelled {literal : Float → List Char} {s : List Token}
    (hchain : s.IsChain fun t next => t.standsBefore next = true)
    (hwritten : ∀ t ∈ s, t.WrittenAs (t.written literal)) (position : Nat) :
    ∃ tokens, tokens.map PlacedToken.token = s ∧
      Spelled position tokens (s.flatMap (Token.written literal)) := by
  induction s generalizing position with
  | nil => exact ⟨[], rfl, .done position⟩
  | cons t s ih =>
    obtain ⟨hnext, hchain⟩ := List.isChain_cons.1 hchain
    have ht := hwritten t List.mem_cons_self
    have hrest : ∀ u ∈ s, u.WrittenAs (u.written literal) := fun u hu =>
      hwritten u (List.mem_cons_of_mem t hu)
    obtain ⟨tokens, rfl, hspelled⟩ := ih hchain hrest (position + (t.written literal).length)
    refine ⟨⟨t, position⟩ :: tokens, rfl, ?_⟩
    rw [List.flatMap_cons]
    refine .token ht ?_ hspelled
    cases tokens with
    | nil => intro c hc; cases hc
    | cons u tokens =>
      rw [List.map_cons, List.flatMap_cons]
      exact (hrest _ List.mem_cons_self).endsBefore (hnext _ rfl)

end Spreadsheet
