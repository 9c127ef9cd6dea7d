/-
What stands before a formula moves its errors and nothing else. The tokens of
a text that starts further to the right are the same tokens, as far to the
right (`displaced_tokensFrom`), and from tokens that have been moved the parser
reads the same tree or finds the same fault, as far to the right
(`displaces`): one induction over the number of nested calls, for all its
functions together. So a leading equals sign makes no difference to what a
formula means (`Formula.leading_equals_is_neutral`).
-/
import Spreadsheet.Proofs.Collecting
import Spreadsheet.Proofs.Printing

namespace Spreadsheet

/-! ## Places further to the right -/

/-- The same token further to the right. -/
def PlacedToken.shift (k : Nat) (t : PlacedToken) : PlacedToken :=
  ⟨t.token, t.position + k⟩

/-- The same tokens further to the right. -/
def shiftTokens (k : Nat) (tokens : Tokens) : Tokens :=
  tokens.map (.shift k)

@[simp] theorem shiftTokens_cons {k : Nat} {token : Token} {position : Nat} {rest : Tokens} :
    shiftTokens k (⟨token, position⟩ :: rest) = ⟨token, position + k⟩ :: shiftTokens k rest := rfl

@[simp] theorem length_shiftTokens {k : Nat} {tokens : Tokens} :
    (shiftTokens k tokens).length = tokens.length :=
  List.length_map _

/-- What has been read, with the tokens after it further to the right. -/
def shiftRest {α : Type} (k : Nat) (read : α × Tokens) : α × Tokens :=
  (read.1, shiftTokens k read.2)

/-- The same part of a reference further to the right. -/
def CellPart.shift (k : Nat) (part : CellPart) : CellPart :=
  { part with position := part.position + k }

/-- What has been read of a reference, further to the right with the tokens after it. -/
def shiftPart (k : Nat) (read : CellPart × Tokens) : CellPart × Tokens :=
  (read.1.shift k, shiftTokens k read.2)

/-- The same surroundings of a formula that ends further to the right. -/
def Scope.shift (k : Nat) (scope : Scope) : Scope :=
  { scope with endPosition := scope.endPosition + k }

/-- Two readings with the same outcome, the second of them further to the right: it returns what the
first does, moved, or fails with the same fault further to the right. That there is nothing to read
is not among these faults: its place is always the start. -/
inductive Displaced (k : Nat) {α : Type} (move : α → α) :
    Except SyntaxError α → Except SyntaxError α → Prop where
  | ok (a : α) : Displaced k move (.ok a) (.ok (move a))
  | error {fault : SyntaxFault} (position : Nat) : fault ≠ .emptyFormula →
    Displaced k move (.error ⟨fault, position⟩) (.error ⟨fault, position + k⟩)

section Displaced

variable {k : Nat} {α β : Type} {move : α → α} {move' : β → β} {x x' : Except SyntaxError α}

theorem Displaced.bind {f f' : α → Except SyntaxError β} (hx : Displaced k move x x')
    (hf : ∀ a, Displaced k move' (f a) (f' (move a))) :
    Displaced k move' (x >>= f) (x' >>= f') := by
  cases hx with
  | ok a => exact hf a
  | error position hfault => exact .error position hfault

/-- The second reading goes on with the same tokens, moved. -/
theorem Displaced.bind_rest {y y' : Except SyntaxError (α × Tokens)}
    {f f' : α × Tokens → Except SyntaxError β} (hy : Displaced k (shiftRest k) y y')
    (hf : ∀ a rest, Displaced k move' (f (a, rest)) (f' (a, shiftTokens k rest))) :
    Displaced k move' (y >>= f) (y' >>= f') :=
  hy.bind fun read => hf read.1 read.2

theorem Displaced.map {f f' : α → β} (hx : Displaced k move x x')
    (hf : ∀ a, f' (move a) = move' (f a)) : Displaced k move' (x.map f) (x'.map f') := by
  cases hx with
  | ok a =>
    change Displaced k move' (.ok (f a)) (.ok (f' (move a)))
    rw [hf]
    exact .ok (f a)
  | error position hfault => exact .error position hfault

theorem Displaced.outcomes (h : Displaced k move x x') :
    (∃ a, x = .ok a ∧ x' = .ok (move a)) ∨
      ∃ fault position, fault ≠ .emptyFormula ∧ x = .error ⟨fault, position⟩ ∧
        x' = .error ⟨fault, position + k⟩ := by
  cases h with
  | ok a => exact .inl ⟨a, rfl, rfl⟩
  | error position hfault => exact .inr ⟨_, position, hfault, rfl, rfl⟩

end Displaced

/-! ## Tokens -/

theorem ne_emptyFormula_of_readToken {c : Char} {rest : List Char} {fault : SyntaxFault}
    (h : readToken c rest = .error fault) : fault ≠ .emptyFormula := by
  rintro rfl
  rcases readToken_cases c rest with
    hread | ⟨t, -, hread⟩ | ⟨op, after, hread⟩ | hread | ⟨-, hread⟩ | hread <;> rw [hread] at h
  · unfold readQuotedToken at h
    split at h <;> cases h
  · cases h
  · cases h
  · unfold readNumberToken at h
    split at h <;> cases h
  · cases h
  · cases h

/-- **A text that starts further to the right has the same tokens, as far to the right.** -/
theorem displaced_tokensFrom (k position : Nat) (s : List Char) :
    Displaced k (shiftTokens k) (tokensFrom position s) (tokensFrom (position + k) s) := by
  induction position, s using tokensFrom.induct with
  | case1 position =>
    rw [tokensFrom, tokensFrom]
    exact .ok []
  | case2 position c rest hc ih =>
    rw [tokensFrom_blank hc, tokensFrom_blank hc, Nat.add_right_comm]
    exact ih
  | case3 position c rest hc fault hread =>
    rw [tokensFrom_error (Bool.not_eq_true _ ▸ hc) hread,
      tokensFrom_error (Bool.not_eq_true _ ▸ hc) hread]
    exact .error position (ne_emptyFormula_of_readToken hread)
  | case4 position c rest hc token after hread ih =>
    have hplace : position + k + 1 + (rest.length - after.length) =
        position + 1 + (rest.length - after.length) + k := by omega
    rw [tokensFrom_token (Bool.not_eq_true _ ▸ hc) hread,
      tokensFrom_token (Bool.not_eq_true _ ▸ hc) hread, hplace]
    exact ih.map fun tokens => rfl

/-! ## Parts of phrases -/

section Parts

variable {k : Nat} {scope : Scope}

theorem displaced_unexpected {α : Type} {move : α → α} (tokens : Tokens) :
    Displaced k move (.error (unexpected scope tokens))
      (.error (unexpected (scope.shift k) (shiftTokens k tokens))) := by
  cases tokens with
  | nil => exact .error _ (by simp)
  | cons t rest => exact .error _ (by simp)

theorem displaced_closeParen (openPosition : Nat) (tokens : Tokens) :
    Displaced k (shiftTokens k) (closeParen openPosition tokens)
      (closeParen (openPosition + k) (shiftTokens k tokens)) := by
  rcases tokens with _ | ⟨⟨token, position⟩, rest⟩
  · exact .error _ (by simp)
  · cases token with
    | closeParen => exact .ok rest
    | _ => exact .error _ (by simp)

theorem leadingOp?_shiftTokens (ops : List BinaryOp) (tokens : Tokens) :
    leadingOp? ops (shiftTokens k tokens) = (leadingOp? ops tokens).map (shiftRest k) := by
  rcases tokens with _ | ⟨⟨token, position⟩, rest⟩
  · rfl
  · cases token with
    | operator op =>
      simp only [leadingOp?, shiftTokens_cons]
      split <;> rfl
    | _ => rfl

theorem leadingSign?_shiftTokens (tokens : Tokens) :
    leadingSign? (shiftTokens k tokens) = (leadingSign? tokens).map (shiftRest k) := by
  rcases tokens with _ | ⟨⟨token, position⟩, rest⟩
  · rfl
  · cases token with
    | operator op => cases op <;> rfl
    | _ => rfl

theorem endsName_shiftTokens (tokens : Tokens) :
    endsName (shiftTokens k tokens) = endsName tokens := by
  rcases tokens with _ | ⟨⟨token, position⟩, rest⟩
  · rfl
  · cases token <;> rfl

/-! ## References -/

theorem displaced_address (part : CellPart) :
    Displaced k id part.address (part.shift k).address := by
  unfold CellPart.address
  simp only [CellPart.shift]
  split
  · exact .ok _
  · exact .error _ (by simp)

theorem displaced_rangeBetween (first last : CellPart) (firstCell : CellAddress) :
    Displaced k id (rangeBetween first firstCell last)
      (rangeBetween (first.shift k) firstCell (last.shift k)) := by
  unfold rangeBetween
  change Displaced k id _ (if last.sheet = first.sheet then _ else _)
  by_cases h : last.sheet = first.sheet
  · rw [if_pos h, if_pos h]
    exact (displaced_address last).map fun lastCell => rfl
  · rw [if_neg h, if_neg h]
    exact .error _ (by simp)

theorem displaced_parseSheetPart (name : String) (position : Nat) (rest : Tokens) :
    Displaced k (shiftPart k) (parseSheetPart scope name position rest)
      (parseSheetPart (scope.shift k) name (position + k) (shiftTokens k rest)) := by
  unfold parseSheetPart
  have hsheets : (scope.shift k).sheetNamed = scope.sheetNamed := rfl
  rw [hsheets]
  cases scope.sheetNamed name with
  | none => exact .error _ (by simp)
  | some sheet =>
    rcases rest with _ | ⟨⟨token, place⟩, rest⟩
    · exact .error _ (by simp)
    · cases token with
      | identifier label => exact .ok _
      | _ => exact .error _ (by simp)

theorem displaced_parseCellPart (tokens : Tokens) :
    Displaced k (shiftPart k) (parseCellPart scope tokens)
      (parseCellPart (scope.shift k) (shiftTokens k tokens)) := by
  rcases tokens with _ | ⟨⟨token, position⟩, rest⟩
  · exact displaced_unexpected []
  · cases token with
    | identifier label =>
      rcases rest with _ | ⟨⟨next, place⟩, rest⟩
      · exact .ok _
      · cases next with
        | bang => exact displaced_parseSheetPart label position rest
        | _ => exact .ok _
    | quotedName name =>
      rcases rest with _ | ⟨⟨next, place⟩, rest⟩
      · exact .error _ (by simp)
      · cases next with
        | bang => exact displaced_parseSheetPart name position rest
        | _ => exact .error _ (by simp)
    | _ => exact displaced_unexpected _

theorem displaced_parseReference (tokens : Tokens) :
    Displaced k (shiftRest k) (parseReference scope tokens)
      (parseReference (scope.shift k) (shiftTokens k tokens)) := by
  refine (displaced_parseCellPart tokens).bind fun read => ?_
  obtain ⟨first, rest⟩ := read
  refine (displaced_address first).bind fun firstCell => ?_
  rcases rest with _ | ⟨⟨token, position⟩, rest⟩
  · exact .ok _
  · cases token with
    | colon =>
      refine (displaced_parseCellPart rest).bind fun read => ?_
      obtain ⟨last, rest⟩ := read
      exact (displaced_rangeBetween first last firstCell).bind fun reference => .ok _
    | _ => exact .ok _

/-- A word that is no function is a name or starts a reference. -/
theorem displaced_word (name : String) (position : Nat) (rest : Tokens) :
    Displaced k (shiftRest k)
      (if isValidName name && endsName rest then .ok (Expr.name name, rest)
      else do
        let (target, rest) ← parseReference scope (⟨.identifier name, position⟩ :: rest)
        return (Expr.reference target, rest))
      (if isValidName name && endsName (shiftTokens k rest) then
        .ok (Expr.name name, shiftTokens k rest)
      else do
        let (target, rest) ← parseReference (scope.shift k)
          (⟨.identifier name, position + k⟩ :: shiftTokens k rest)
        return (Expr.reference target, rest)) := by
  rw [endsName_shiftTokens]
  split
  · exact .ok (Expr.name name, rest)
  · exact (displaced_parseReference (⟨.identifier name, position⟩ :: rest)).bind_rest
      fun target rest => .ok _

end Parts

/-! ## Phrases -/

/-- What is read with a number of nested calls is read from tokens that have been moved as well. -/
structure Displaces (k : Nat) (scope : Scope) (n : Nat) : Prop where
  phrase : ∀ kind tokens, Displaced k (shiftRest k) (parsePhrase scope n kind tokens)
    (parsePhrase (scope.shift k) n kind (shiftTokens k tokens))
  chain : ∀ kind left tokens, Displaced k (shiftRest k) (parseChain scope n kind left tokens)
    (parseChain (scope.shift k) n kind left (shiftTokens k tokens))
  power : ∀ tokens, Displaced k (shiftRest k) (parsePower scope n tokens)
    (parsePower (scope.shift k) n (shiftTokens k tokens))
  signed : ∀ tokens, Displaced k (shiftRest k) (parseSigned scope n tokens)
    (parseSigned (scope.shift k) n (shiftTokens k tokens))
  operand : ∀ tokens, Displaced k (shiftRest k) (parseOperand scope n tokens)
    (parseOperand (scope.shift k) n (shiftTokens k tokens))
  arguments : ∀ tokens, Displaced k (shiftRest k) (parseArguments scope n tokens)
    (parseArguments (scope.shift k) n (shiftTokens k tokens))
  more : ∀ tokens, Displaced k (shiftRest k) (parseMoreArguments scope n tokens)
    (parseMoreArguments (scope.shift k) n (shiftTokens k tokens))

namespace Displaces

variable {k n : Nat} {scope : Scope}

theorem zero : Displaces k scope 0 := by
  constructor <;> intros <;> exact .error _ (by simp)

theorem succ_phrase (ih : Displaces k scope n) (kind : Phrase) (tokens : Tokens) :
    Displaced k (shiftRest k) (parsePhrase scope (n + 1) kind tokens)
      (parsePhrase (scope.shift k) (n + 1) kind (shiftTokens k tokens)) := by
  cases kind with
  | operand => exact ih.operand tokens
  | signed => exact ih.signed tokens
  | power => exact ih.power tokens
  | comparison | sum | product =>
    exact (ih.phrase _ tokens).bind_rest fun left rest => ih.chain _ left rest

theorem succ_chain (ih : Displaces k scope n) (kind : Phrase) (left : Expr) (tokens : Tokens) :
    Displaced k (shiftRest k) (parseChain scope (n + 1) kind left tokens)
      (parseChain (scope.shift k) (n + 1) kind left (shiftTokens k tokens)) := by
  rw [parseChain, parseChain, leadingOp?_shiftTokens]
  cases leadingOp? kind.operators tokens with
  | none => exact .ok (left, tokens)
  | some p =>
    exact (ih.phrase _ p.2).bind_rest fun right rest => ih.chain kind (.binary p.1 left right) rest

theorem succ_power (ih : Displaces k scope n) (tokens : Tokens) :
    Displaced k (shiftRest k) (parsePower scope (n + 1) tokens)
      (parsePower (scope.shift k) (n + 1) (shiftTokens k tokens)) := by
  rw [parsePower, parsePower]
  refine (ih.phrase .signed tokens).bind_rest fun base rest => ?_
  simp only [leadingOp?_shiftTokens]
  cases leadingOp? [.pow] rest with
  | none => exact .ok (base, rest)
  | some p => exact (ih.phrase .power p.2).bind_rest fun exponent rest => .ok _

theorem succ_signed (ih : Displaces k scope n) (tokens : Tokens) :
    Displaced k (shiftRest k) (parseSigned scope (n + 1) tokens)
      (parseSigned (scope.shift k) (n + 1) (shiftTokens k tokens)) := by
  rw [parseSigned, parseSigned, leadingSign?_shiftTokens]
  cases leadingSign? tokens with
  | none => exact ih.phrase .operand tokens
  | some p => exact (ih.phrase .signed p.2).bind_rest fun operand rest => .ok _

theorem succ_operand (ih : Displaces k scope n) (tokens : Tokens) :
    Displaced k (shiftRest k) (parseOperand scope (n + 1) tokens)
      (parseOperand (scope.shift k) (n + 1) (shiftTokens k tokens)) := by
  rcases tokens with _ | ⟨⟨token, position⟩, rest⟩
  · exact displaced_unexpected []
  · cases token with
    | number | text => exact .ok _
    | openParen =>
      refine (ih.phrase .comparison rest).bind_rest fun inner rest => ?_
      exact (displaced_closeParen position rest).bind fun rest => .ok _
    | identifier name =>
      rcases rest with _ | ⟨⟨next, place⟩, rest⟩
      · exact displaced_word name position []
      · cases next with
        | openParen =>
          simp only [shiftTokens_cons, parseOperand]
          cases Function.ofName? name with
          | none => exact .error _ (by simp)
          | some function =>
            refine (ih.arguments rest).bind_rest fun arguments rest => ?_
            exact (displaced_closeParen place rest).bind fun rest => .ok _
        | _ => exact displaced_word name position _
    | quotedName name =>
      refine (displaced_parseReference (⟨.quotedName name, position⟩ :: rest)).bind_rest
        fun target rest => .ok _
    | _ => exact displaced_unexpected _

theorem succ_arguments (ih : Displaces k scope n) (tokens : Tokens) :
    Displaced k (shiftRest k) (parseArguments scope (n + 1) tokens)
      (parseArguments (scope.shift k) (n + 1) (shiftTokens k tokens)) := by
  rcases tokens with _ | ⟨⟨token, position⟩, rest⟩
  · refine (ih.phrase .comparison []).bind_rest fun first rest => ?_
    exact (ih.more rest).bind_rest fun others rest => .ok _
  · cases token with
    | closeParen => exact .ok _
    | _ =>
      refine (ih.phrase .comparison (_ :: rest)).bind_rest fun first rest => ?_
      exact (ih.more rest).bind_rest fun others rest => .ok _

theorem succ_more (ih : Displaces k scope n) (tokens : Tokens) :
    Displaced k (shiftRest k) (parseMoreArguments scope (n + 1) tokens)
      (parseMoreArguments (scope.shift k) (n + 1) (shiftTokens k tokens)) := by
  rcases tokens with _ | ⟨⟨token, position⟩, rest⟩
  · exact .ok _
  · cases token with
    | comma =>
      refine (ih.phrase .comparison rest).bind_rest fun next rest => ?_
      exact (ih.more rest).bind_rest fun others rest => .ok _
    | _ => exact .ok _

end Displaces

/-- **From tokens that have been moved the parser reads the same**, and finds the same faults as far
to the right. -/
theorem displaces (k : Nat) (scope : Scope) : ∀ n, Displaces k scope n
  | 0 => .zero
  | n + 1 =>
    have ih := displaces k scope n
    { phrase := ih.succ_phrase
      chain := ih.succ_chain
      power := ih.succ_power
      signed := ih.succ_signed
      operand := ih.succ_operand
      arguments := ih.succ_arguments
      more := ih.succ_more }

theorem displaced_parseTokens {k : Nat} {scope : Scope} {tokens : Tokens} (h : tokens ≠ []) :
    Displaced k id (parseTokens scope tokens)
      (parseTokens (scope.shift k) (shiftTokens k tokens)) := by
  have hempty : tokens.isEmpty = false := by simpa using h
  have hempty' : (shiftTokens k tokens).isEmpty = false := by simpa [shiftTokens] using h
  rw [parseTokens, parseTokens, hempty, hempty', parseExpression, parseExpression, callBound,
    callBound, length_shiftTokens]
  refine ((displaces k scope _).phrase _ tokens).bind_rest fun tree rest => ?_
  rcases rest with _ | ⟨⟨token, position⟩, rest⟩
  · exact .ok tree
  · cases token <;> exact .error _ (by simp)

/-! ## Whole formulas -/

namespace Formula

variable {s : String}

/-- The same tree, or the same fault one place further to the right, unless there is nothing to
read. -/
theorem parse_equals (hs : s.toList.head? ≠ some '=') (originSheet : Nat)
    (sheetNamed : String → Option Nat) :
    let read := fun source => parse source originSheet sheetNamed
    (∃ tree, read s = .ok ⟨s, tree⟩ ∧ read ("=" ++ s) = .ok ⟨"=" ++ s, tree⟩) ∨
      (∃ fault position, fault ≠ .emptyFormula ∧ read s = .error ⟨fault, position⟩ ∧
        read ("=" ++ s) = .error ⟨fault, position + 1⟩) ∨
      read s = .error ⟨.emptyFormula, 0⟩ ∧ read ("=" ++ s) = .error ⟨.emptyFormula, 0⟩ := by
  intro read
  have hplain : tokenize s = tokensFrom 0 s.toList := tokenize_of_head fun c hc h => hs (h ▸ hc)
  have hequals : tokenize ("=" ++ s) = tokensFrom (0 + 1) s.toList := tokenize_equals s
  have hlength : ("=" ++ s).length = s.length + 1 := by
    rw [String.length_append, Nat.add_comm]
    rfl
  have herror : ∀ {source e}, tokenize source = .error e → read source = .error e := fun h => by
    simp only [read, parse, h]
    rfl
  have htokens := displaced_tokensFrom 1 0 s.toList
  rw [← hplain, ← hequals] at htokens
  rcases htokens.outcomes with ⟨tokens, ht, ht'⟩ | ⟨fault, position, hfault, ht, ht'⟩
  · have hread : read s = _ := parse_of_tokenize ht originSheet sheetNamed
    have hread' : read ("=" ++ s) = _ := parse_of_tokenize ht' originSheet sheetNamed
    rw [hlength] at hread'
    by_cases hnone : tokens = []
    · -- the one fault that is found at the start of both
      subst hnone
      exact .inr (.inr ⟨hread, hread'⟩)
    · have htree : Displaced 1 id (parseTokens ⟨originSheet, sheetNamed, s.length⟩ tokens)
          (parseTokens ⟨originSheet, sheetNamed, s.length + 1⟩ (shiftTokens 1 tokens)) :=
        displaced_parseTokens hnone
      rcases htree.outcomes with ⟨tree, ht, ht'⟩ | ⟨fault, position, hfault, ht, ht'⟩
      · rw [ht] at hread
        rw [ht'] at hread'
        exact .inl ⟨tree, hread, hread'⟩
      · rw [ht] at hread
        rw [ht'] at hread'
        exact .inr (.inl ⟨fault, position, hfault, hread, hread'⟩)
  · exact .inr (.inl ⟨fault, position, hfault, herror ht, herror ht'⟩)

/--
**A leading equals sign is neutral.** Take a text that does not start with one, any sheet it is
written on and any way to find sheets by their names. Either the text and the text after an equals
sign are both read, to the same tree, and the same references and names are noted on the way; or
both fail with the same fault, one place further to the right after the equals sign; or neither
holds anything to read, and both fail at their start.
-/
theorem leading_equals_is_neutral (s : String) (hs : s.toList.head? ≠ some '=') (originSheet : Nat)
    (sheetNamed : String → Option Nat) :
    let read := fun source => parse source originSheet sheetNamed
    let readNoting := fun source => parseNoting source originSheet sheetNamed
    (∃ tree noted, (read s = .ok ⟨s, tree⟩ ∧ readNoting s = .ok (⟨s, tree⟩, noted)) ∧
        read ("=" ++ s) = .ok ⟨"=" ++ s, tree⟩ ∧
          readNoting ("=" ++ s) = .ok (⟨"=" ++ s, tree⟩, noted)) ∨
      (∃ fault position, fault ≠ .emptyFormula ∧
        (read s = .error ⟨fault, position⟩ ∧ readNoting s = .error ⟨fault, position⟩) ∧
          read ("=" ++ s) = .error ⟨fault, position + 1⟩ ∧
            readNoting ("=" ++ s) = .error ⟨fault, position + 1⟩) ∨
      (read s = .error ⟨.emptyFormula, 0⟩ ∧ readNoting s = .error ⟨.emptyFormula, 0⟩) ∧
        read ("=" ++ s) = .error ⟨.emptyFormula, 0⟩ ∧
          readNoting ("=" ++ s) = .error ⟨.emptyFormula, 0⟩ := by
  intro read readNoting
  have hok : ∀ {source f}, read source = .ok f →
      readNoting source = .ok (f, ⟨f.references, f.names⟩) := fun h =>
    (noted_are_the_leaves h).1
  have herror : ∀ {source e}, read source = .error e → readNoting source = .error e := fun h => by
    rw [show readNoting _ = _ from parseNoting_eq, show parse _ _ _ = _ from h]
    rfl
  rcases parse_equals hs originSheet sheetNamed with
    ⟨tree, h, h'⟩ | ⟨fault, position, hfault, h, h'⟩ | ⟨h, h'⟩
  · exact .inl ⟨tree, _, ⟨h, hok h⟩, h', hok h'⟩
  · exact .inr (.inl ⟨fault, position, hfault, ⟨h, herror h⟩, h', herror h'⟩)
  · exact .inr (.inr ⟨⟨h, herror h⟩, h', herror h'⟩)

/-- A product that is read, with its references and names; and one whose parenthesis is not closed:
the fault is found behind the last character, and its place is that of the parenthesis. -/
theorem leading_equals_is_neutral_product :
    let read := fun source => parse source 0 fun _ => none
    let readNoting := fun source => parseNoting source 0 fun _ => none
    let tree : Expr := .binary .mul (.name "rate") (.reference (.range (.ofCorners 0 0 0 1 1)))
    (("rate*(A1:b$2)".toList.head? ≠ some '=' ∧
          read "rate*(A1:b$2)" = .ok ⟨"rate*(A1:b$2)", tree⟩) ∧
        "rate*(A1:b$2".toList.head? ≠ some '=' ∧
          read "rate*(A1:b$2" = .error ⟨.unbalancedParen, 5⟩) ∧
      (read "=rate*(A1:b$2)" = .ok ⟨"=rate*(A1:b$2)", tree⟩ ∧
        readNoting "=rate*(A1:b$2)" = .ok (⟨"=rate*(A1:b$2)", tree⟩,
          ⟨[.range (.ofCorners 0 0 0 1 1)], ["rate"]⟩)) ∧
      read "=rate*(A1:b$2" = .error ⟨.unbalancedParen, 6⟩ ∧
        readNoting "=rate*(A1:b$2" = .error ⟨.unbalancedParen, 6⟩ := by
  intro read readNoting tree
  have hs : "rate*(A1:b$2)".toList.head? ≠ some '=' := by decide
  have hs' : "rate*(A1:b$2".toList.head? ≠ some '=' := by decide
  have hread : read "rate*(A1:b$2)" = .ok ⟨"rate*(A1:b$2)", tree⟩ := by
    simp only [read, tree]
    cbv
  have hread' : read "rate*(A1:b$2" = .error ⟨.unbalancedParen, 5⟩ := by
    simp only [read]
    cbv
  refine ⟨⟨⟨hs, hread⟩, hs', hread'⟩, ?_, ?_⟩
  · have hnoted : readNoting "rate*(A1:b$2)" = .ok (⟨"rate*(A1:b$2)", tree⟩,
        ⟨[.range (.ofCorners 0 0 0 1 1)], ["rate"]⟩) := by
      simp only [readNoting, tree]
      cbv
    rcases leading_equals_is_neutral "rate*(A1:b$2)" hs 0 (fun _ => none) with
      ⟨_, noted, ⟨h, hn⟩, hequals⟩ | ⟨_, _, -, ⟨h, -⟩, -⟩ | ⟨⟨h, -⟩, -⟩
    · cases hread.symm.trans h
      cases hnoted.symm.trans hn
      exact hequals
    · cases hread.symm.trans h
    · cases hread.symm.trans h
  · rcases leading_equals_is_neutral "rate*(A1:b$2" hs' 0 (fun _ => none) with
      ⟨_, _, ⟨h, -⟩, -⟩ | ⟨_, _, -, ⟨h, -⟩, hequals⟩ | ⟨⟨h, -⟩, -⟩
    · cases hread'.symm.trans h
    · cases hread'.symm.trans h
      exact hequals
    · cases hread'.symm.trans h

end Formula

end Spreadsheet
